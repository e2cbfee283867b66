import Sagas.Pool

/-!
# What the steps of a pool come to

A task that is run to its end advances until it has finished. So whatever permits and advances
preserve also holds of a batch whose tasks are worked off one after the other.

Results:
1. `grant_of_closed`, `grant_of_room`, `advance_of_ask`: the steps that change a task.
2. `finish_advance`, `finish_of_idle`: running a task to its end, answer by answer.
3. `runInOrder_induction`: what all steps preserve.
-/

namespace Sagas

variable {D B σ : Type}

/-- What the pool makes of a task that has died. -/
def Task.died : Except SagaError Unit := .error (.worker "task panicked")

namespace Pool

variable {p : Pool D B σ} {index : Nat}

theorem getElem?_setTask {j : Nat} {task : Task D B} (there : p.tasks[index]? ≠ none) :
    (p.setTask index task).tasks[j]? = if j = index then some task else p.tasks[j]? := by
  have inRange : index < p.tasks.length := by
    simpa [List.getElem?_eq_none_iff] using there
  by_cases same : j = index
  · subst same
    simp [setTask, inRange]
  · simp [setTask, same, Ne.symm same]

theorem setTask_self {task : Task D B} (place : p.tasks[index]? = some task) :
    p.setTask index task = p := by
  obtain ⟨inRange, here⟩ := List.getElem?_eq_some_iff.1 place
  subst here
  simp [setTask]

/-! ## Permits -/

section Grant

variable {closed : σ → Bool} {delivery : Delivery B}

theorem grant_of_closed (waiting : p.tasks[index]? = some (.waiting delivery))
    (shut : closed p.state = true) :
    p.grant closed index = p.setTask index (.finished (.error .shutdown)) := by
  simp [grant, waiting, shut]

theorem grant_of_room (waiting : p.tasks[index]? = some (.waiting delivery))
    (working : closed p.state = false) (room : p.running < p.limit) :
    p.grant closed index = p.setTask index (.settle (p.bus.processPooled delivery)) := by
  simp [grant, waiting, working, room]

theorem grant_of_full (waiting : p.tasks[index]? = some (.waiting delivery))
    (working : closed p.state = false) (full : ¬ p.running < p.limit) :
    p.grant closed index = p := by
  simp [grant, waiting, working, full]

theorem grant_of_begun (begun : ∀ delivery, p.tasks[index]? ≠ some (.waiting delivery)) :
    p.grant closed index = p := by
  unfold grant
  split
  next delivery waiting => exact absurd waiting (begun delivery)
  next => rfl

theorem state_grant (index : Nat) : (p.grant closed index).state = p.state := by
  unfold grant
  split
  next =>
    split
    next => rfl
    next => split <;> rfl
  next => rfl

end Grant

/-! ## Answers -/

section Finish

variable {answer : Program.Answering B σ} {request : Request B}
  {rest : Reply request → Program B (Except SagaError Unit)}
  {program : Program B (Except SagaError Unit)}

theorem advance_of_ask (asks : p.tasks[index]? = some (.running (.ask request rest))) :
    p.advance answer index =
      { p.setTask index (.settle (rest (answer request p.state).1)) with
        state := (answer request p.state).2 } := by
  unfold advance
  rw [asks]
  rfl

theorem state_advance (asks : p.tasks[index]? = some (.running (.ask request rest))) :
    (p.advance answer index).state = (answer request p.state).2 := by
  rw [advance_of_ask asks]

/-- The pool after a task has been run to its end. -/
def ended (answer : Program.Answering B σ) (index : Nat)
    (program : Program B (Except SagaError Unit)) (p : Pool D B σ) : Pool D B σ :=
  { p.setTask index (.finished ((program.run answer p.state).1.getD Task.died)) with
    state := (program.run answer p.state).2 }

/-- Nothing is left to do for a program that has come to its end. -/
theorem ended_self (place : p.tasks[index]? = some (.settle program))
    (last : ∀ request rest, program ≠ .ask request rest) : p.ended answer index program = p := by
  cases program with
  | done result => exact setTask_self place
  | ask request rest => exact absurd rfl (last request rest)
  | panic => exact setTask_self place

theorem finish_of_settle (place : p.tasks[index]? = some (.settle program)) :
    p.finish answer index = p.ended answer index program := by
  unfold Pool.finish
  rw [place]
  cases program with
  | done result => exact (ended_self place (by simp)).symm
  | ask request rest => rfl
  | panic => exact (ended_self place (by simp)).symm

theorem finish_of_idle (idle : ∀ program, p.tasks[index]? ≠ some (.running program)) :
    p.finish answer index = p := by
  unfold finish
  split
  next program running => exact absurd running (idle program)
  next => rfl

theorem getElem?_advance (asks : p.tasks[index]? = some (.running (.ask request rest))) :
    (p.advance answer index).tasks[index]? =
      some (.settle (rest (answer request p.state).1)) := by
  have there : p.tasks[index]? ≠ none := by simp [asks]
  rw [advance_of_ask asks]
  exact (getElem?_setTask there).trans (if_pos rfl)

/-- A task that is run to its end has its first request answered. -/
theorem finish_advance (asks : p.tasks[index]? = some (.running (.ask request rest))) :
    (p.advance answer index).finish answer index = p.finish answer index := by
  have settled : p.tasks[index]? = some (.settle (.ask request rest)) := asks
  rw [finish_of_settle settled, finish_of_settle (getElem?_advance asks), advance_of_ask asks]
  simp [ended, setTask, Program.run]

/-- What answers preserve holds of a pool in which one task is run to its end. -/
theorem finish_induction {holds : Pool D B σ → Prop}
    (answered : ∀ {p : Pool D B σ} {request : Request B} {rest}, holds p →
      p.tasks[index]? = some (.running (.ask request rest)) → holds (p.advance answer index))
    (start : holds p) (place : p.tasks[index]? = some (.settle program)) :
    holds (p.finish answer index) := by
  induction program generalizing p with
  | done result =>
    rw [finish_of_idle (by simp [place, Task.settle])]
    exact start
  | panic =>
    rw [finish_of_idle (by simp [place, Task.settle])]
    exact start
  | ask request rest ih =>
    rw [← finish_advance place]
    exact ih _ (answered start place) (getElem?_advance place)

/-- What permits and answers preserve holds of a pool whose tasks are worked off in order, if those
that run have not come to their end. -/
theorem runInOrder_induction {closed : σ → Bool} {holds : Pool D B σ → Prop}
    (granted : ∀ {p : Pool D B σ} (index : Nat), holds p → holds (p.grant closed index))
    (answered : ∀ {p : Pool D B σ} {index : Nat} {request : Request B} {rest}, holds p →
      p.tasks[index]? = some (.running (.ask request rest)) → holds (p.advance answer index))
    (asking : ∀ {p : Pool D B σ} {index : Nat} {program}, holds p →
      p.tasks[index]? = some (.running program) → ∃ request rest, program = .ask request rest)
    (start : holds p) : holds (p.runInOrder answer closed) := by
  unfold runInOrder
  induction List.range p.tasks.length generalizing p with
  | nil => exact start
  | cons index later ih =>
    rw [List.foldl_cons]
    refine ih ?_
    have begun := granted index start
    by_cases running : ∃ program, (p.grant closed index).tasks[index]? = some (.running program)
    · obtain ⟨program, running⟩ := running
      obtain ⟨request, rest, rfl⟩ := asking begun running
      have settled : (p.grant closed index).tasks[index]? = some (.settle (.ask request rest)) :=
        running
      exact finish_induction answered begun settled
    · rw [finish_of_idle (not_exists.1 running)]
      exact begun

end Finish

end Pool

end Sagas
