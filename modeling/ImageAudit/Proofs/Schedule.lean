import ImageAudit.Proofs.Fallible
import ImageAudit.Proofs.Stateful
import ImageAudit.Schedule
import Mathlib.Data.List.Nodup

/-! # Tasks that leave each other alone

Where no task touches what another one depends on, it does not show how many run at a time or in
which order they end: what a run gives is what the tasks give one by one in order, up to the first
that fails. The invariant is that a task that has ended gave its outcome and any other one finds the
state as if it were alone; each step ends a task or takes one, so the steps of a run are enough.
-/

namespace ImageAudit.Schedule

variable {σ α β ε : Type}

/-- Each task gives its outcome where nothing has touched what it depends on, and touches nothing
that another task depends on. -/
structure Apart (perform : α → StateM σ β) (outcome : α → β) (Untouched : α → σ → Prop)
    (tasks : List α) : Prop where
  gives : ∀ task ∈ tasks, ∀ state, Untouched task state → (perform task state).1 = outcome task
  keeps : ∀ task ∈ tasks, ∀ other ∈ tasks, other ≠ task → ∀ state, Untouched task state →
    Untouched other state → Untouched other (perform task state).2

theorem Apart.mono {perform : α → StateM σ β} {outcome : α → β} {Untouched : α → σ → Prop}
    {tasks fewer : List α} (apart : Apart perform outcome Untouched tasks)
    (within : ∀ task ∈ fewer, task ∈ tasks) : Apart perform outcome Untouched fewer where
  gives task member := apart.gives task (within task member)
  keeps task member other member' :=
    apart.keeps task (within task member) other (within other member')

/-- Steps that leave each other alone give in order what each gives by itself. -/
theorem Apart.mapM_eq {step : α → ExceptT ε (StateM σ) β} {outcome : α → Except ε β}
    {Untouched : α → σ → Prop} {tasks : List α}
    (apart : Apart (fun task => (step task).run) outcome Untouched tasks) (distinct : tasks.Nodup)
    {state : σ} (untouched : ∀ task ∈ tasks, Untouched task state) :
    ((tasks.mapM step).run state).1 = tasks.mapM outcome := by
  induction tasks generalizing state with
  | nil => rfl
  | cons task tasks ih =>
    obtain ⟨other, distinct⟩ := List.nodup_cons.mp distinct
    have here := untouched task (List.mem_cons_self ..)
    have gives := apart.gives task (List.mem_cons_self ..) state here
    have rest := ih (apart.mono fun other => List.mem_cons_of_mem _) distinct fun later member =>
      apart.keeps task (List.mem_cons_self ..) later (List.mem_cons_of_mem _ member)
        (ne_of_mem_of_not_mem member other) state here
        (untouched later (List.mem_cons_of_mem _ member))
    rw [List.mapM_cons, List.mapM_cons, ← gives, ← rest]
    change ((step task >>= fun first => tasks.mapM step >>= fun rest => pure (first :: rest))
      state).1 = ((step task state).1 >>= fun first =>
        ((tasks.mapM step) (step task state).2).1 >>= fun rest => pure (first :: rest))
    rw [Stateful.bind_apply]
    rcases step task state with ⟨_ | first, between⟩
    · rfl
    · dsimp only
      rw [Stateful.bind_apply, Fallible.ok_bind]
      rcases tasks.mapM step between with ⟨_ | _, _⟩ <;> rfl

/-- The tasks that were not taken, in order. -/
def remaining (schedule : Schedule α β) : List α :=
  schedule.begun.map (·.task) ++ schedule.waiting

theorem remaining_cons (waiting : List α) (slot : Slot α β) (rest : List (Slot α β)) :
    remaining ⟨waiting, slot :: rest⟩ = slot.task :: remaining ⟨waiting, rest⟩ := rfl

/-- How many tasks have not ended. -/
def unfinished (schedule : Schedule α β) : Nat :=
  schedule.begun.countP (·.result.isNone) + schedule.waiting.length

/-- The tasks that have ended gave their outcomes, and no other one was touched. -/
structure Sound (outcome : α → β) (Untouched : α → σ → Prop) (schedule : Schedule α β)
    (state : σ) : Prop where
  ended : ∀ slot ∈ schedule.begun, ∀ result, slot.result = some result →
    result = outcome slot.task
  running : ∀ slot ∈ schedule.begun, slot.result = none → Untouched slot.task state
  waiting : ∀ task ∈ schedule.waiting, Untouched task state

/-- Taking the first task keeps the invariant. -/
theorem Sound.tail {outcome : α → β} {Untouched : α → σ → Prop} {waiting : List α}
    {slot : Slot α β} {rest : List (Slot α β)} {state : σ}
    (sound : Sound outcome Untouched ⟨waiting, slot :: rest⟩ state) :
    Sound outcome Untouched ⟨waiting, rest⟩ state where
  ended other member := sound.ended other (List.mem_cons_of_mem _ member)
  running other member := sound.running other (List.mem_cons_of_mem _ member)
  waiting := sound.waiting

section Refill

variable (limit : Nat) (schedule : Schedule α β)

theorem remaining_refill : (schedule.refill limit).remaining = schedule.remaining := by
  simp only [remaining, refill, List.map_append, List.map_map, Function.comp_def, List.map_id',
    List.append_assoc, List.take_append_drop]

theorem unfinished_refill : (schedule.refill limit).unfinished = schedule.unfinished := by
  simp only [unfinished, refill, List.countP_append, List.countP_map, List.length_drop]
  have begun : ((schedule.waiting.take (limit - schedule.begun.length)).countP
      ((·.result.isNone) ∘ fun task => (⟨task, none⟩ : Slot α β))) =
        (schedule.waiting.take (limit - schedule.begun.length)).length :=
    List.countP_eq_length.mpr fun _ _ => rfl
  rw [begun, List.length_take]
  omega

variable {limit schedule}

theorem Sound.refill {outcome : α → β} {Untouched : α → σ → Prop} {state : σ}
    (sound : Sound outcome Untouched schedule state) :
    Sound outcome Untouched (schedule.refill limit) state where
  ended := by
    intro slot member result ended
    rcases List.mem_append.mp member with before | added
    · exact sound.ended slot before result ended
    · obtain ⟨task, _, rfl⟩ := List.mem_map.mp added
      cases ended
  running := by
    intro slot member running
    rcases List.mem_append.mp member with before | added
    · exact sound.running slot before running
    · obtain ⟨task, taken, rfl⟩ := List.mem_map.mp added
      exact sound.waiting task (List.mem_of_mem_take taken)
  waiting := fun task member => sound.waiting task (List.mem_of_mem_drop member)

/-- With room for one task, none is begun only where none is left. -/
theorem remaining_eq_nil_of_refill (room : 0 < limit)
    (nothing : (schedule.refill limit).begun = []) : schedule.remaining = [] := by
  obtain ⟨begun, added⟩ := List.append_eq_nil_iff.mp nothing
  have waiting : schedule.waiting = [] := by
    rcases List.take_eq_nil_iff.mp (List.map_eq_nil_iff.mp added) with free | empty
    · rw [begun, List.length_nil] at free
      omega
    · exact empty
  rw [remaining, begun, waiting]
  rfl

end Refill

section Finish

/-- Ending a task gives it its result and leaves the others as they are. -/
theorem finishAt_apply (perform : α → StateM σ β) {position : Nat} {slots : List (Slot α β)}
    (inside : position < slots.countP (·.result.isNone)) (state : σ) :
    ∃ before task after, slots = before ++ ⟨task, none⟩ :: after ∧
      finishAt perform position slots state =
        (before ++ ⟨task, some (perform task state).1⟩ :: after, (perform task state).2) := by
  induction slots generalizing position with
  | nil => cases inside
  | cons slot rest ih =>
    obtain ⟨task, result⟩ := slot
    cases result with
    | some result =>
      rw [List.countP_cons_of_neg (by simp)] at inside
      obtain ⟨before, other, after, rfl, ran⟩ := ih inside
      refine ⟨⟨task, some result⟩ :: before, other, after, rfl, ?_⟩
      change ((⟨task, some result⟩ :: (finishAt perform position _ state).1,
        (finishAt perform position _ state).2) : List (Slot α β) × σ) = _
      rw [ran]
      rfl
    | none =>
      cases position with
      | zero => exact ⟨[], task, rest, rfl, rfl⟩
      | succ position =>
        rw [List.countP_cons_of_pos (by simp)] at inside
        obtain ⟨before, other, after, rfl, ran⟩ := ih (Nat.lt_of_succ_lt_succ inside)
        refine ⟨⟨task, none⟩ :: before, other, after, rfl, ?_⟩
        change ((⟨task, none⟩ :: (finishAt perform position _ state).1,
          (finishAt perform position _ state).2) : List (Slot α β) × σ) = _
        rw [ran]
        rfl

variable {perform : α → StateM σ β} {outcome : α → β} {Untouched : α → σ → Prop}
variable {schedule : Schedule α β} {state : σ}

/-- Ending a task keeps the invariant, and one task fewer has not ended. -/
theorem Sound.finish (sound : Sound outcome Untouched schedule state)
    (apart : Apart perform outcome Untouched schedule.remaining)
    (distinct : schedule.remaining.Nodup)
    (runs : 0 < schedule.begun.countP (·.result.isNone)) (choice : Nat) :
    Sound outcome Untouched (schedule.finish perform choice state).1
        (schedule.finish perform choice state).2 ∧
      (schedule.finish perform choice state).1.remaining = schedule.remaining ∧
      (schedule.finish perform choice state).1.unfinished + 1 = schedule.unfinished := by
  obtain ⟨before, task, after, slots, ran⟩ :=
    finishAt_apply perform (Nat.mod_lt choice runs) state
  have next : schedule.finish perform choice state =
      (⟨schedule.waiting, before ++ ⟨task, some (perform task state).1⟩ :: after⟩,
        (perform task state).2) := by
    change ((⟨schedule.waiting, (finishAt perform _ _ state).1⟩,
      (finishAt perform _ _ state).2) : Schedule α β × σ) = _
    rw [ran]
  have tasks : schedule.remaining =
      before.map (·.task) ++ task :: after.map (·.task) ++ schedule.waiting := by
    rw [remaining, slots, List.map_append, List.map_cons]
  have here : task ∈ schedule.remaining := by simp [tasks]
  have fresh : Untouched task state := sound.running ⟨task, none⟩ (by simp [slots]) rfl
  have others {other : α}
      (member : other ∈ before.map (·.task) ++ after.map (·.task) ++ schedule.waiting)
      (untouched : Untouched other state) : Untouched other (perform task state).2 := by
    rw [tasks, List.append_assoc, List.cons_append] at distinct
    have differs : other ≠ task := by
      rintro rfl
      exact (List.nodup_middle.mp distinct).notMem (by simpa [or_assoc] using member)
    refine apart.keeps task here other ?_ differs state fresh untouched
    rw [tasks]
    simp only [List.mem_append, List.mem_cons] at member ⊢
    tauto
  rw [next]
  refine ⟨⟨?_, ?_, ?_⟩, ?_, ?_⟩
  · intro slot member result ended
    simp only [List.mem_append, List.mem_cons] at member
    rcases member with earlier | rfl | later
    · exact sound.ended slot (by simp [slots, earlier]) result ended
    · cases ended
      exact apart.gives task here state fresh
    · exact sound.ended slot (by simp [slots, later]) result ended
  · intro slot member running
    simp only [List.mem_append, List.mem_cons] at member
    rcases member with earlier | rfl | later
    · have place := List.mem_map_of_mem (f := Slot.task) earlier
      exact others (by simp [place]) (sound.running slot (by simp [slots, earlier]) running)
    · cases running
    · have place := List.mem_map_of_mem (f := Slot.task) later
      exact others (by simp [place]) (sound.running slot (by simp [slots, later]) running)
  · exact fun other member => others (by simp [member]) (sound.waiting other member)
  · rw [tasks, remaining, List.map_append, List.map_cons]
  · simp only [unfinished, slots, List.countP_append, List.countP_cons]
    simp
    omega

end Finish

section Run

variable {perform : α → StateM σ (Except ε β)} {outcome : α → Except ε β}
variable {Untouched : α → σ → Prop} {limit : Nat} (room : 0 < limit) (choose : Nat → Nat)
variable (interrupt : Nat → α → StateM σ (Except ε β))
include room

/-- What is left of a schedule gives what the tasks that are left give in order. -/
theorem results_eq_mapM {steps : Nat} {schedule : Schedule α (Except ε β)} {state : σ}
    (apart : Apart perform outcome Untouched schedule.remaining)
    (distinct : schedule.remaining.Nodup) (sound : Sound outcome Untouched schedule state)
    (enough : schedule.remaining.length + schedule.unfinished ≤ steps) :
    (results limit choose perform interrupt steps schedule state).1 =
      schedule.remaining.mapM outcome := by
  induction steps generalizing schedule state with
  | zero =>
    have nothing : schedule.remaining = [] := List.eq_nil_of_length_eq_zero (by omega)
    rw [nothing]
    rfl
  | succ steps ih =>
    have sound : Sound outcome Untouched (schedule.refill limit) state := sound.refill
    have ended : (schedule.refill limit).begun = [] → schedule.remaining = [] :=
      remaining_eq_nil_of_refill room
    rw [← remaining_refill limit] at apart distinct enough ended ⊢
    rw [← unfinished_refill limit] at enough
    simp only [results]
    generalize schedule.refill limit = schedule at *
    obtain ⟨waiting, begun⟩ := schedule
    match begun with
    | [] =>
      rw [ended rfl]
      rfl
    | ⟨task, none⟩ :: rest =>
      obtain ⟨next, same, fewer⟩ := sound.finish apart distinct (by simp) (choose steps)
      rw [← same, ← fewer, ← Nat.add_assoc] at enough
      rw [← same] at apart distinct ⊢
      exact ih apart distinct next (Nat.le_of_succ_le_succ enough)
    | ⟨task, some (.error failure)⟩ :: rest =>
      have failed := sound.ended _ (List.mem_cons_self ..) _ rfl
      rw [remaining_cons, List.mapM_cons, ← failed]
      rfl
    | ⟨task, some (.ok result)⟩ :: rest =>
      have succeeded := sound.ended _ (List.mem_cons_self ..) _ rfl
      rw [remaining_cons] at apart distinct enough ⊢
      have enough : (remaining ⟨waiting, rest⟩).length + unfinished ⟨waiting, rest⟩ ≤ steps := by
        simp only [List.length_cons, unfinished, List.countP_cons] at enough ⊢
        omega
      have same := ih (apart.mono fun other => List.mem_cons_of_mem _) distinct.of_cons sound.tail
        enough
      change ((results limit choose perform interrupt steps ⟨waiting, rest⟩ state).1.map
        (result :: ·)) = _
      rw [same, List.mapM_cons, ← succeeded]
      cases (remaining ⟨waiting, rest⟩).mapM outcome <;> rfl

end Run

/-- A run of tasks that leave each other alone gives what they give in order, whatever the limit and
whichever ends first. -/
theorem run_eq_mapM {perform : α → StateM σ (Except ε β)} {outcome : α → Except ε β}
    {Untouched : α → σ → Prop} {tasks : List α} (apart : Apart perform outcome Untouched tasks)
    (distinct : tasks.Nodup) {state : σ} (untouched : ∀ task ∈ tasks, Untouched task state)
    (limit : Nat) (choose : Nat → Nat) (interrupt : Nat → α → StateM σ (Except ε β)) :
    (run limit choose perform interrupt tasks state).1 = tasks.mapM outcome := by
  refine results_eq_mapM (Nat.lt_of_lt_of_le Nat.one_pos (Nat.le_max_right ..)) choose interrupt
    apart distinct ⟨?_, ?_, untouched⟩ ?_
  · exact fun slot member => absurd member (List.not_mem_nil)
  · exact fun slot member => absurd member (List.not_mem_nil)
  · simp only [remaining, unfinished, start, List.map_nil, List.nil_append, List.countP_nil]
    omega

end ImageAudit.Schedule
