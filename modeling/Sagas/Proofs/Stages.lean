import Sagas.Proofs.Course
import Sagas.Proofs.Plan

/-!
# What the stages of a message ask for, and what they leave

One rule for every stage up to the writes: which requests it makes, and what it leaves of the
message when it succeeds, in terms of the exchanges that it had. Up to the handlers a message asks
for nothing that application code could ask for, and before its writes for no write.

Results:
1. `Served`, `keeps_served`: the bindings are those of all sagas, by the rules they were served.
2. `Binds`, `keeps_bindAll`: each instance was loaded by a value of the message, or is new.
3. `Ran`, `keeps_handle`: handlers leave all but the data and the flags of their own instances.
4. `keeps_announced`, `keeps_finish`: announcing the writes, and finishing.
-/

namespace Sagas

variable {D B : Type} {whole past : List (Exchange B)}

/-! ## Kinds of requests -/

namespace Request

/-- What a message asks for around its handlers and its writes. -/
def Prepares : Request B → Prop
  | .rules _ | .acquire .. | .release _ | .find .. | .freshId | .count _ | .note _ => True
  | _ => False

/-- What application code asks for. -/
def Applies : Request B → Prop
  | .send _ | .draw _ | .note _ | .shutdown => True
  | _ => False

def isWrite : Request B → Bool
  | .insert .. | .update .. | .delete _ => true
  | _ => false

theorem Prepares.not_write {request : Request B} (prepares : request.Prepares) :
    request.isWrite = false := by
  cases request <;> first | rfl | exact prepares.elim

theorem Applies.not_write {request : Request B} (applies : request.Applies) :
    request.isWrite = false := by
  cases request <;> first | rfl | exact applies.elim

end Request

open Request (Prepares Applies)

theorem Program.recalling_ignores {allowed : Request B → Prop} {request : Request B}
    (isAllowed : allowed request) : (Program.recalling allowed whole).Ignores request :=
  ⟨fun _ => isAllowed, fun _ _ => rfl⟩

abbrev preparing (whole : List (Exchange B)) : Contract B Unit :=
  Program.recalling Prepares whole

abbrev applying (whole : List (Exchange B)) : Contract B Unit :=
  Program.recalling Applies whole

theorem preparing_locks : (preparing whole).IgnoresLocks where
  note _ := Program.recalling_ignores trivial
  acquire _ _ := Program.recalling_ignores trivial
  release _ := Program.recalling_ignores trivial

theorem preparing_count (counter : Counter) : (preparing whole).Ignores (.count counter) :=
  Program.recalling_ignores trivial

theorem applying_acts : (applying whole).IgnoresActs Send.request where
  send _ _ := ⟨trivial, fun _ _ => rfl⟩
  draw _ := Program.recalling_ignores trivial
  note _ := Program.recalling_ignores trivial
  shutdown := Program.recalling_ignores trivial

/-! ## Rules -/

namespace Incoming

variable {m : Incoming D B} {bindings : List (Binding B)}

/-- Whether there is a saga at a place. -/
def hasSaga (m : Incoming D B) (place : Nat) : Bool :=
  m.invocations[place]?.any (·.saga?.isSome)

/-- By these exchanges, the bindings are those of all sagas of the message, in their order, each by
the rules that it was served. -/
structure Served (whole : List (Exchange B)) (m : Incoming D B) (bindings : List (Binding B)) :
    Prop where
  places : bindings.map (·.index) = (List.range m.invocations.length).filter m.hasSaga
  serves : ∀ b ∈ bindings, m.Serves (fun type rules => ⟨.rules type, .ok rules⟩ ∈ whole) b

theorem Served.nodup (served : m.Served whole bindings) : (bindings.map (·.index)).Nodup := by
  rw [served.places]
  exact List.nodup_range.filter _

theorem keeps_places {index : Nat} {invocations : List (Invocation D B)}
    (place : ∀ k, m.invocations[index + k]? = invocations[k]?) :
    (bindingsFrom m.message index invocations).Keeps (preparing whole) () fun r _ =>
      ∀ bindings, r = .ok bindings → bindings.map (·.index) =
        (List.range' index invocations.length).filter m.hasSaga := by
  induction invocations generalizing index with
  | nil =>
    rintro bindings ⟨⟩
    rfl
  | cons i rest ih =>
    have after : ∀ k, m.invocations[index + 1 + k]? = rest[k]? := fun k => by
      have := place (k + 1)
      rwa [show index + (k + 1) = index + 1 + k by omega] at this
    have further := ih after
    have here : m.invocations[index]? = some i := by simpa using place 0
    rw [bindingsFrom, List.length_cons, List.range'_succ]
    split
    next plain =>
      have without : m.hasSaga index = false := by simp [hasSaga, here, plain]
      rwa [List.filter_cons_of_neg (by simp [without])]
    next saga isSaga =>
      have within : m.hasSaga index = true := by simp [hasSaga, here, isSaga]
      rw [List.filter_cons_of_pos within]
      refine Program.keeps_ignored_bind (Program.recalling_ignores trivial) fun reply => ?_
      cases reply with
      | error e => rintro _ ⟨⟩
      | ok rules =>
        cases chosen : rules.forMessage m.message with
        | error e => simp [chosen]
        | ok forMessage =>
          simp only [chosen]
          refine further.bind fun r _ places => ?_
          cases r with
          | error e => rintro _ ⟨⟩
          | ok bindings =>
            rintro all ⟨⟩
            rw [List.map_cons, places bindings rfl]

theorem keeps_served (m : Incoming D B) (whole : List (Exchange B)) :
    m.bindings.Keeps (preparing whole) () fun r _ =>
      ∀ bindings, r = .ok bindings → m.Served whole bindings := by
  have places : m.bindings.Keeps (preparing whole) () fun r _ =>
      ∀ bindings, r = .ok bindings → bindings.map (·.index) =
        (List.range' 0 m.invocations.length).filter m.hasSaga := keeps_places (by simp)
  have serves := keeps_bindings (m := m) (c := preparing whole) (s := ())
    (fun type rules => ⟨.rules type, .ok rules⟩ ∈ whole) (fun _ _ => rfl)
    (fun _ _ expected => expected) (fun _ _ _ _ => trivial)
  refine (places.and serves).imp ?_
  rintro r _ ⟨places, -, serves⟩ bindings same
  exact ⟨List.range_eq_range' ▸ places bindings same, (serves bindings same).2⟩

end Incoming

/-! ## Locks -/

theorem keeps_takeLocks (job : Job D B) (bindings : List (Binding B)) (whole : List (Exchange B)) :
    (job.takeLocks bindings).Keeps (preparing whole) () fun _ _ => True := by
  unfold Job.takeLocks
  cases job.locking with
  | false => trivial
  | true =>
    refine (Incoming.keeps_lockKeys preparing_locks.note _ _ _ _).bind fun keys _ _ => ?_
    exact (Incoming.keeps_acquireAll preparing_locks _ _ keys []).imp fun _ _ _ => trivial

/-! ## Binding -/

/-- By these exchanges, nothing is stored under the values that the message yields. -/
def Incoming.Missed (whole : List (Exchange B)) (message : Message B) (context : Context)
    (rules : List (Rule B)) : Prop :=
  ∀ r ∈ rules, ∀ value, r.value? context message = some value →
    ⟨.find r.dataType r.property value, .ok none⟩ ∈ whole

namespace Invocation

/-- What binding makes of an invocation whose saga has these rules for the message, by these
exchanges. -/
inductive Binds (whole : List (Exchange B)) (onMiss : MissHandler D B) (message : Message B)
    (context : Context) (rules : List (Rule B)) (i : Invocation D B) : Invocation D B → Prop
  /-- The message yields a value under which an instance is stored. -/
  | loaded {saga : Saga D B} {r : Rule B} {value : Scalar} {d : Document} {data : D} :
      i.handler = .saga saga → r ∈ rules → r.value? context message = some value →
      ⟨.find r.dataType r.property value, .ok (some d)⟩ ∈ whole → read saga d = .ok data →
      Binds whole onMiss message context rules i { i with bound := some (.ofData data false) }
  /-- The message starts an instance, with the values that it yields. -/
  | started {saga : Saga D B} {fresh : Uuid} :
      i.handler = .saga saga → Incoming.Missed whole message context rules →
      message.hierarchy.any i.isInitiatedBy = true → ⟨.freshId, fresh⟩ ∈ whole →
      Binds whole onMiss message context rules i { i with
        bound := some (.ofData (newData saga (Incoming.yields message context rules) fresh) true) }
  /-- The message may not start an instance, and the error handler gives it a new one. -/
  | supplied {saga : Saga D B} {values : List PropertyValue} {fresh : Uuid} :
      i.handler = .saga saga → Incoming.Missed whole message context rules →
      message.hierarchy.any i.isInitiatedBy = false →
      (onMiss.react rules i message).EndsIn (.create values) → ⟨.freshId, fresh⟩ ∈ whole →
      Binds whole onMiss message context rules i
        { i with bound := some (.ofData (newData saga values fresh) true) }
  | skipped : Incoming.Missed whole message context rules →
      message.hierarchy.any i.isInitiatedBy = false →
      (onMiss.react rules i message).EndsIn .skip →
      Binds whole onMiss message context rules i { i with skipped := true }
  | ignored : Incoming.Missed whole message context rules →
      message.hierarchy.any i.isInitiatedBy = false →
      (onMiss.react rules i message).EndsIn .goOn →
      Binds whole onMiss message context rules i i

variable {onMiss : MissHandler D B} {message : Message B} {context : Context}
  {rules : List (Rule B)} {i : Invocation D B}

theorem Binds.handler {j : Invocation D B} (binds : Binds whole onMiss message context rules i j) :
    j.handler = i.handler := by
  cases binds <;> rfl

/-- An invocation that fails to be bound is left as it was. -/
def BindsOrStays {ε α : Type} (whole : List (Exchange B)) (onMiss : MissHandler D B)
    (message : Message B) (context : Context) (rules : List (Rule B)) (i : Invocation D B)
    (r : Invocation D B × Except ε α) : Prop :=
  match r.2 with
  | .ok _ => i.Binds whole onMiss message context rules r.1
  | .error _ => r.1 = i

theorem keeps_created {values : List PropertyValue}
    (binds : ∀ saga fresh, i.handler = .saga saga → ⟨.freshId, fresh⟩ ∈ whole →
      i.Binds whole onMiss message context rules
        { i with bound := some (.ofData (newData saga values fresh) true) }) :
    (i.create values).Keeps (preparing whole) () fun r _ =>
      i.BindsOrStays whole onMiss message context rules r := by
  cases handler : i.handler with
  | plain name run =>
    unfold create
    rw [handler]
    rfl
  | saga saga =>
    exact keeps_create preparing_locks.note handler trivial fun fresh drawn =>
      binds saga fresh handler drawn

theorem keeps_bindFound {r : Rule B} {value : Scalar} {d : Document} (among : r ∈ rules)
    (yields : r.value? context message = some value)
    (found : ⟨.find r.dataType r.property value, .ok (some d)⟩ ∈ whole) :
    (Incoming.bindFound r d i).Keeps (preparing whole) () fun j _ =>
      i.BindsOrStays whole onMiss message context rules j := by
  refine (keeps_load preparing_locks.note i d false ()).bind ?_
  rintro ⟨j, answer⟩ _ ⟨-, loads⟩
  cases bind : i.bind d false with
  | error e =>
    rw [bind] at loads
    cases loads
    rfl
  | ok bound =>
    rw [bind] at loads
    cases loads
    obtain ⟨saga, data, isSaga, reads, rfl⟩ := bind_eq_ok bind
    refine Program.keeps_ignored_bind (preparing_count _) fun _ => ?_
    refine Program.keeps_ignored_bind (preparing_locks.note _) fun _ => ?_
    exact .loaded isSaga among yields found reads

theorem keeps_bindNone (missed : Incoming.Missed whole message context rules)
    (refused : message.hierarchy.any i.isInitiatedBy = false) :
    (Incoming.bindNone onMiss message rules i).Keeps (preparing whole) () fun j _ =>
      i.BindsOrStays whole onMiss message context rules j := by
  refine Incoming.keeps_bindNone preparing_locks.note trivial rfl
    (.skipped missed refused) (fun values decided => ?_) (.ignored missed refused)
    (fun _ _ => rfl)
  have binds : ∀ saga fresh, i.handler = .saga saga → ⟨.freshId, fresh⟩ ∈ whole →
      i.Binds whole onMiss message context rules
        { i with bound := some (.ofData (newData saga values fresh) true) } :=
    fun saga fresh isSaga drawn => .supplied isSaga missed refused decided drawn
  refine (keeps_created binds).imp ?_
  rintro ⟨j, answer⟩ _ binds
  cases answer with
  | error e => exact binds
  | ok id => exact binds

theorem keeps_bindOne :
    (Incoming.bindOne onMiss message context rules i).Keeps (preparing whole) () fun j _ =>
      i.BindsOrStays whole onMiss message context rules j := by
  refine (Incoming.keeps_lookUp preparing_locks.note (fun _ _ _ => rfl)
    (fun _ _ _ _ => trivial) []).bind ?_
  intro result _ looked
  rcases result with e | ⟨r, d⟩ | values
  · rfl
  · obtain ⟨among, value, yields, found, -⟩ := looked
    exact keeps_bindFound among yields found
  · obtain ⟨-, rfl, missed⟩ := looked
    show (ite _ _ _ : Program B _).Keeps _ _ _
    split
    next starts =>
      have binds : ∀ saga fresh, i.handler = .saga saga → ⟨.freshId, fresh⟩ ∈ whole →
          i.Binds whole onMiss message context rules { i with
            bound := some
              (.ofData (newData saga (Incoming.yields message context rules) fresh) true) } :=
        fun saga fresh isSaga drawn => .started isSaga missed starts drawn
      refine (keeps_created binds).bind ?_
      rintro ⟨j, answer⟩ _ binds
      cases answer with
      | error e => exact binds
      | ok id =>
        refine Program.keeps_ignored_bind (preparing_count _) fun _ => ?_
        exact Program.keeps_ignored_bind (preparing_locks.note _) fun _ => binds
    next refused => exact keeps_bindNone missed (by simpa using refused)

end Invocation

namespace Incoming

variable {m : Incoming D B} {bindings : List (Binding B)} {onMiss : MissHandler D B}

/-- What is at a place once the instances of a message are bound: the invocation of a saga has been
bound by its rules, any other one is as it was. -/
def BoundAt (whole : List (Exchange B)) (onMiss : MissHandler D B) (m : Incoming D B)
    (bindings : List (Binding B)) (place : Nat) (j : Invocation D B) : Prop :=
  (place ∉ bindings.map (·.index) ∧ m.invocations[place]? = some j) ∨
    ∃ b ∈ bindings, b.index = place ∧ ∃ i, m.invocations[place]? = some i ∧
      i.Binds whole onMiss m.message m.context b.rules j

/-- The message while its instances are bound, with the bindings that are left. -/
structure HalfBound (whole : List (Exchange B)) (onMiss : MissHandler D B) (m : Incoming D B)
    (bindings left : List (Binding B)) (now : Incoming D B) : Prop where
  like : Like m now
  context : now.context = m.context
  untouched : ∀ b ∈ left, now.invocations[b.index]? = m.invocations[b.index]?
  bound : ∀ place j, place ∉ left.map (·.index) → now.invocations[place]? = some j →
    m.BoundAt whole onMiss bindings place j

theorem HalfBound.put {left : List (Binding B)} {b : Binding B} {now : Incoming D B}
    {i j : Invocation D B} (half : m.HalfBound whole onMiss bindings (b :: left) now)
    (known : b ∈ bindings) (apart : b.index ∉ left.map (·.index))
    (place : now.invocations[b.index]? = some i)
    (binds : i.Binds whole onMiss m.message m.context b.rules j) :
    m.HalfBound whole onMiss bindings left (now.put b.index j) where
  like := half.like.put place binds.handler
  context := half.context
  untouched other member := by
    have differ : b.index ≠ other.index := fun same =>
      apart (same ▸ List.mem_map_of_mem (f := Binding.index) member)
    rw [← half.untouched other (List.mem_cons_of_mem _ member)]
    simp [Incoming.put, differ]
  bound k r outside found := by
    rcases getElem?_put place found with ⟨rfl, rfl⟩ | before
    · have first := half.untouched b List.mem_cons_self
      exact .inr ⟨b, known, rfl, i, first.symm.trans place, binds⟩
    · by_cases here : k = b.index
      · subst here
        have inRange := (List.getElem?_eq_some_iff.1 place).1
        have new : (now.put b.index j).invocations[b.index]? = some j := by
          simp [Incoming.put, inRange]
        cases new.symm.trans found
        have first := half.untouched b List.mem_cons_self
        exact .inr ⟨b, known, rfl, i, first.symm.trans place, binds⟩
      · exact half.bound k r (by simpa [here] using outside) before

theorem put_same {place : Nat} {i : Invocation D B} (found : m.invocations[place]? = some i) :
    m.put place i = m := by
  obtain ⟨within, rfl⟩ := List.getElem?_eq_some_iff.1 found
  simp [Incoming.put]

/-- Binding all instances of a message, up to the first that fails. -/
theorem keeps_bindAll (distinct : (bindings.map (·.index)).Nodup) :
    (bindAll onMiss bindings m).Keeps (preparing whole) () fun r _ =>
      match r.2 with
      | .ok () => m.HalfBound whole onMiss bindings [] r.1
      | .error _ => ∃ left, m.HalfBound whole onMiss bindings left r.1 := by
  refine (keeps_each
    (fun left now _ => left ⊆ bindings ∧ (left.map (·.index)).Nodup ∧
      m.HalfBound whole onMiss bindings left now)
    (fun now _ _ => ∃ left, m.HalfBound whole onMiss bindings left now) ?_ ?_).imp ?_
  · rintro b left now - ⟨within, distinct, half⟩
    refine keeps_onInvocation (fun _ => trivial) fun i place => ?_
    refine Invocation.keeps_bindOne.imp ?_
    rintro ⟨j, answer⟩ _ binds
    cases answer with
    | error e =>
      obtain rfl : j = i := binds
      exact ⟨b :: left, (put_same place).symm ▸ half⟩
    | ok =>
      obtain ⟨apart, rest⟩ := List.nodup_cons.1 distinct
      exact ⟨fun b member => within (List.mem_cons_of_mem _ member), rest,
        half.put (within List.mem_cons_self) apart place binds⟩
  · exact ⟨fun _ member => member, distinct, .refl m, rfl, fun _ _ => rfl,
      fun place j outside found => .inl ⟨outside, found⟩⟩
  · rintro ⟨now, answer⟩ _ ended
    cases answer with
    | error e => exact ended
    | ok => exact ended.2.2

end Incoming

/-! ## Handling -/

namespace Invocation

/-- What running its handler has made of an invocation: if it is skipped, nothing, and of a bound
instance the data and the flags are as the handler left them. -/
structure Ran (i j : Invocation D B) : Prop where
  handler : j.handler = i.handler
  skipped : j.skipped = i.skipped
  idle : i.skipped = true → j = i
  bound : ∀ saga, i.handler = .saga saga → i.skipped = false →
    ∃ inst v, i.bound = some inst ∧ j.bound = some (inst.after v)

theorem keeps_ran {context : Context} {i : Invocation D B} (runs : i.skipped = false) :
    (i.invoke .request context).Keeps (applying whole) () fun r _ =>
      r.2 = .ok () → i.Ran r.1 := by
  cases handler : i.handler with
  | plain name run =>
    unfold invoke
    simp only [runs, handler]
    refine ((Act.ends_of_forall (fun _ => trivial) _).keeps (.inl trivial) applying_acts ()).bind ?_
    intro outcome _ _ _
    exact ⟨rfl, rfl, fun skipped => (nomatch runs.symm.trans skipped),
      fun saga isSaga => (nomatch handler.symm.trans isSaga)⟩
  | saga saga =>
    cases bound : i.bound with
    | none =>
      unfold invoke
      simp only [runs, handler, bound]
      exact nofun
    | some inst =>
      refine (keeps_invoke_saga runs handler bound applying_acts
        (Act.ends_of_forall (fun _ => trivial) _) (.inl trivial)).imp ?_
      rintro r _ ⟨-, v, -, rfl⟩ -
      refine ⟨rfl, rfl, fun skipped => (nomatch runs.symm.trans skipped), ?_⟩
      exact fun _ _ _ => ⟨inst, v, bound, rfl⟩

end Invocation

namespace Stage

theorem keeps_allRan {context : Context} (invocations : List (Invocation D B)) :
    (dispatchAll .request context invocations).Keeps (applying whole) () fun r _ =>
      r.2 = .ok () → List.Forall₂ Invocation.Ran invocations r.1 := by
  induction invocations with
  | nil => exact fun _ => .nil
  | cons i rest ih =>
    rw [dispatchAll]
    split
    next skipped =>
      refine Program.keeps_ignored_bind (applying_acts.note _) fun _ => ih.bind ?_
      rintro ⟨rest', answer⟩ _ pairs succeeds
      exact .cons ⟨rfl, rfl, fun _ => rfl, fun _ _ runs => absurd runs (by simp [skipped])⟩
        (pairs succeeds)
    next runs =>
      refine (Invocation.keeps_ran (by simpa using runs)).bind ?_
      rintro ⟨i', answer⟩ _ ran
      cases answer with
      | error e => rintro ⟨⟩
      | ok =>
        refine ih.bind ?_
        rintro ⟨rest', answer⟩ _ pairs succeeds
        exact .cons (ran rfl) (pairs succeeds)

end Stage

namespace Incoming

variable {m : Incoming D B}

/-- The handlers of a message, all of which succeed or one of which fails. -/
theorem keeps_handle (m : Incoming D B) (whole : List (Exchange B)) :
    (handle m).Keeps (applying whole) () fun r _ => r.2 = .ok () →
      ∃ invocations, r.1 = { m with invocations } ∧
        List.Forall₂ Invocation.Ran m.invocations invocations := by
  refine (Stage.keeps_allRan m.invocations).bind ?_
  rintro ⟨invocations, answer⟩ _ pairs
  cases answer with
  | error e => exact nofun
  | ok => exact fun _ => ⟨invocations, rfl, pairs rfl⟩

end Incoming

/-! ## Announcing and finishing -/

theorem Touched.keeps_announced (groups : List (Touched D B)) (whole : List (Exchange B)) :
    (groups.forM Touched.announce).Keeps (preparing whole) () fun _ _ => True :=
  (keeps_announceAll preparing_locks.note (preparing_count _) groups ()).imp fun _ _ _ => trivial

theorem keeps_finish {σ : Type} {c : Contract B σ} (ignores : c.IgnoresLocks) (held : List String)
    (r : Processed D B) (s : σ) : (finish held r).Keeps c s fun r' t => r' = r ∧ t = s := by
  refine (Incoming.keeps_releaseAll ignores held s).bind fun _ t same => ?_
  subst same
  obtain ⟨m, answer⟩ := r
  cases answer with
  | error e => exact Program.keeps_ignored_bind (ignores.note _) fun _ => ⟨rfl, rfl⟩
  | ok => exact ⟨rfl, rfl⟩

/-! ## What has been reached -/

namespace Job

variable {job : Job D B} {bindings : List (Binding B)} {held : List String} {m : Incoming D B}

theorem Prepared.served (prepared : job.Prepared bindings held past) (within : past ⊆ whole) :
    job.incoming.Served whole bindings ∧ ∀ x ∈ past, x.request.Prepares := by
  obtain ⟨early, late, serves, takes, rfl⟩ := prepared
  obtain ⟨later, earlier⟩ := List.append_subset.1 within
  obtain ⟨served, asked⟩ := serves.recalled (Incoming.keeps_served _ whole) earlier
  obtain ⟨-, asked'⟩ := takes.recalled (keeps_takeLocks job bindings whole) later
  exact ⟨served bindings rfl, fun x member =>
    (List.mem_append.1 member).elim (asked' x) (asked x)⟩

theorem Bound.bound (bound : job.Bound bindings held m past) (within : past ⊆ whole) :
    job.incoming.Served whole bindings ∧ job.incoming.HalfBound whole job.onMiss bindings [] m ∧
      ∀ x ∈ past, x.request.Prepares := by
  obtain ⟨early, late, prepared, binds, rfl⟩ := bound
  obtain ⟨later, earlier⟩ := List.append_subset.1 within
  obtain ⟨served, asked⟩ := prepared.served earlier
  obtain ⟨half, asked'⟩ := binds.recalled (Incoming.keeps_bindAll served.nodup) later
  exact ⟨served, half, fun x member =>
    (List.mem_append.1 member).elim (asked' x) (asked x)⟩

theorem Handled.ran (handled : job.Handled bindings held m past) (within : past ⊆ whole) :
    job.incoming.Served whole bindings ∧
      (∃ m₀, job.incoming.HalfBound whole job.onMiss bindings [] m₀ ∧
        m = { m₀ with invocations := m.invocations } ∧
        List.Forall₂ Invocation.Ran m₀.invocations m.invocations) ∧
      ∀ x ∈ past, x.request.isWrite = false := by
  obtain ⟨m₀, early, late, bound, handles, rfl⟩ := handled
  obtain ⟨later, earlier⟩ := List.append_subset.1 within
  obtain ⟨served, half, asked⟩ := bound.bound earlier
  obtain ⟨ran, asked'⟩ := handles.recalled (Incoming.keeps_handle m₀ whole) later
  obtain ⟨invocations, rfl, pairs⟩ := ran rfl
  refine ⟨served, ⟨m₀, half, rfl, pairs⟩, fun x member => ?_⟩
  rcases List.mem_append.1 member with handling | preparing
  · exact (asked' x handling).not_write
  · exact (asked x preparing).not_write

/-- Up to the writes a message keeps its handlers. -/
theorem Handled.like (handled : job.Handled bindings held m past) :
    Incoming.Like job.incoming m := by
  obtain ⟨-, ⟨m₀, half, same, ran⟩, -⟩ := handled.ran (List.Subset.refl past)
  refine ⟨(congrArg Incoming.message same).trans half.like.message, ?_⟩
  have handlers : ∀ {before after : List (Invocation D B)},
      List.Forall₂ Invocation.Ran before after →
        after.map (·.handler) = before.map (·.handler) := by
    intro before after ran
    induction ran with
    | nil => rfl
    | cons first _ ih => rw [List.map_cons, List.map_cons, first.handler, ih]
  exact (handlers ran).trans half.like.handlers

end Job

end Sagas
