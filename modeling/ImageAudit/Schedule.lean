/-! # Tasks side by side

Tasks are begun in order, a limited number at a time, and end in any order; their results are taken
in the order in which they were begun. A task that has ended keeps its place until all before it
were taken. The first failure that is taken ends the run: no further task is begun, and those that
still run are told to stop and awaited, whatever they give then. What a task does besides its result
is done when it ends.
-/

namespace ImageAudit

/-- A task that was begun. -/
structure Slot (α β : Type) where
  task : α
  /-- The result, once the task has ended. -/
  result : Option β

/-- Tasks in the course of being run. -/
structure Schedule (α β : Type) where
  /-- Not begun yet, in order. -/
  waiting : List α
  /-- Begun and not taken, in order. -/
  begun : List (Slot α β)

namespace Schedule

def start (tasks : List α) : Schedule α β := ⟨tasks, []⟩

def refill (limit : Nat) (schedule : Schedule α β) : Schedule α β :=
  let free := limit - schedule.begun.length
  ⟨schedule.waiting.drop free,
    schedule.begun ++ (schedule.waiting.take free).map fun task => ⟨task, none⟩⟩

variable {m : Type → Type} [Monad m]

/-- Ends the running task that has the given number of running tasks before it. -/
def finishAt (perform : α → m β) : Nat → List (Slot α β) → m (List (Slot α β))
  | _, [] => return []
  | position, slot :: rest =>
    match slot.result, position with
    | some _, position => return slot :: (← finishAt perform position rest)
    | none, 0 => return { slot with result := some (← perform slot.task) } :: rest
    | none, position + 1 => return slot :: (← finishAt perform position rest)

/-- Ends one of the running tasks. A choice past the last counts from the first again. -/
def finish (perform : α → m β) (choice : Nat) (schedule : Schedule α β) : m (Schedule α β) := do
  let running := schedule.begun.countP fun slot => slot.result.isNone
  return { schedule with begun := ← finishAt perform (choice % running) schedule.begun }

/-- Tells the tasks that still run to stop and awaits them. What they give is dropped; `choose` says
how far each of them comes, by its turn. -/
def drain (choose : Nat → Nat) (interrupt : Nat → α → m β) : Nat → List (Slot α β) → m Unit
  | _, [] => return
  | turn, slot :: rest => do
    if slot.result.isNone then discard (interrupt (choose turn) slot.task)
    drain choose interrupt (turn + 1) rest

/-- The results that are taken up to the first failure. At each step a task ends or a result is
taken; `choose` says which task ends, by the number of steps left. -/
def results (limit : Nat) (choose : Nat → Nat) (perform : α → m (Except ε β))
    (interrupt : Nat → α → m (Except ε β)) :
    Nat → Schedule α (Except ε β) → m (Except ε (List β))
  | 0, _ => return .ok []
  | steps + 1, schedule => do
    let schedule := schedule.refill limit
    match schedule.begun with
    | [] => return .ok []
    | ⟨_, none⟩ :: _ =>
      results limit choose perform interrupt steps (← schedule.finish perform (choose steps))
    | ⟨_, some (.error failure)⟩ :: rest => do
      drain choose interrupt steps rest
      return .error failure
    | ⟨_, some (.ok result)⟩ :: rest =>
      return (← results limit choose perform interrupt steps ⟨schedule.waiting, rest⟩).map
        (result :: ·)

/-- The results of tasks that are run side by side, at least one at a time. Each task ends once and
is taken once. `interrupt` is what is left of a task that is told to stop. -/
def run (limit : Nat) (choose : Nat → Nat) (perform : α → m (Except ε β))
    (interrupt : Nat → α → m (Except ε β)) (tasks : List α) : m (Except ε (List β)) :=
  results (max limit 1) choose perform interrupt (2 * tasks.length) (start tasks)

end Schedule

end ImageAudit
