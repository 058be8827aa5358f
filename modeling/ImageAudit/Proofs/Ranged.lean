import ImageAudit.Proofs.Bytes

/-! # Steps that stay in range

A read that leaves the data, and a sum or product that outgrows its machine word, come to nothing:
neither to a value nor to a fault. A reader that is made of such steps and reaches an outcome on all
data never leaves its range. The outcome of a sequence of steps is that of the sequence of their
outcomes, so such a reader is compared with a plain one step by step.
-/

namespace ImageAudit

/-- A step that reaches a value or a fault, unless it leaves its range. -/
abbrev Ranged (ε : Type) := ExceptT ε Option

namespace Ranged

/-- A number that fits a machine word of so many bits. -/
def word (bits value : Nat) : Option Nat := if value < 2 ^ bits then some value else none

def sum (a b : Nat) : Option Nat := word 64 (a + b)

def product (a b : Nat) : Option Nat := word 64 (a * b)

def difference (a b : Nat) : Option Nat := if b ≤ a then some (a - b) else none

/-- The bytes from one offset up to another. -/
def between (data : Bytes) (start stop : Nat) : Option Bytes :=
  if start ≤ stop ∧ stop ≤ data.length then some (data.slice start (stop - start)) else none

def byte (data : Bytes) (offset : Nat) : Option UInt8 := data[offset]?

/-- The number stored at an offset in so many bytes. -/
def number (order : ByteOrder) (width : Nat) (data : Bytes) (offset : Nat) : Option Nat :=
  (sum offset width).bind fun stop => (between data offset stop).map (Bytes.natIn order)

section Reads

variable {data : Bytes} {offset width : Nat}

theorem word_of_lt {bits value : Nat} (fits : value < 2 ^ bits) : word bits value = some value :=
  if_pos fits

theorem difference_of_le {a b : Nat} (ordered : b ≤ a) : difference a b = some (a - b) :=
  if_pos ordered

theorem between_of_le {start stop : Nat} (ordered : start ≤ stop) (inside : stop ≤ data.length) :
    between data start stop = some (data.slice start (stop - start)) :=
  if_pos ⟨ordered, inside⟩

theorem byte_of_lt (inside : offset < data.length) :
    byte data offset = some (data.getD offset 0) := by
  rw [byte, List.getD_eq_getElem?_getD, List.getElem?_eq_getElem inside, Option.getD_some]

theorem number_of_le (order : ByteOrder) (inside : offset + width ≤ data.length)
    (fits : offset + width < 2 ^ 64) :
    number order width data offset = some ((data.slice offset width).natIn order) := by
  rw [number, sum, word_of_lt fits, Option.bind_some, between_of_le (Nat.le_add_right ..) inside,
    Nat.add_sub_cancel_left, Option.map_some]

end Reads

variable {ε α β : Type}

/-- The step stays in range and reaches this outcome. -/
def Reaches (step : Ranged ε α) (outcome : Except ε α) : Prop := step.run = some outcome

theorem reaches_pure (value : α) : Reaches (pure value : Ranged ε α) (.ok value) := rfl

theorem reaches_throw (fault : ε) : Reaches (throw fault : Ranged ε α) (.error fault) := rfl

theorem reaches_checked (outcome : Except ε α) : Reaches (liftM outcome) outcome := rfl

theorem reaches_read {first : Option α} {value : α} (found : first = some value) :
    Reaches (liftM first : Ranged ε α) (.ok value) := by
  subst found
  rfl

/-- A step is followed by another only where it reaches a value. -/
theorem Reaches.bind {first : Ranged ε α} {outcome : Except ε α} {rest : α → Ranged ε β}
    {rest' : α → Except ε β} (reaches : Reaches first outcome)
    (onward : ∀ value, outcome = .ok value → Reaches (rest value) (rest' value)) :
    Reaches (first >>= rest) (outcome >>= rest') := by
  have ran : (first >>= rest).run = first.run.bind fun result =>
      match result with
      | .ok value => (rest value).run
      | .error fault => some (.error fault) := by
    simp only [ExceptT.run_bind]
    cases first.run with
    | none => rfl
    | some result => cases result <;> rfl
  rw [Reaches, ran, reaches, Option.bind_some]
  cases outcome with
  | error fault => rfl
  | ok value => exact onward value rfl

/-- What is made of a value is made of it where it is reached. -/
theorem Reaches.map {step : Ranged ε α} {outcome : Except ε α} (reaches : Reaches step outcome)
    (f : α → β) : Reaches (step >>= fun value => pure (f value)) (outcome.map f) := by
  have made : outcome.map f = outcome >>= fun value => .ok (f value) := by
    cases outcome <;> rfl
  rw [made]
  exact reaches.bind fun value _ => reaches_pure _

/-- A step that reaches a value leaves the outcome to the steps after it. -/
theorem Reaches.onward {first : Ranged ε α} {value : α} {rest : α → Ranged ε β}
    {outcome : Except ε β} (reaches : Reaches first (.ok value))
    (onward : Reaches (rest value) outcome) : Reaches (first >>= rest) outcome := by
  have ran : Reaches (first >>= rest) (.ok value >>= fun _ => outcome) := by
    refine reaches.bind fun _ same => ?_
    rwa [← Except.ok.inj same]
  exact ran

/-- A step that reaches a fault is the last. -/
theorem Reaches.fault {first : Ranged ε α} {fault : ε} {rest : α → Ranged ε β}
    (reaches : Reaches first (.error fault)) : Reaches (first >>= rest) (.error fault) := by
  have ran : Reaches (first >>= rest) (.error fault >>= fun _ : α => .error fault) :=
    reaches.bind nofun
  exact ran

/-- A read in range leaves the outcome to the steps after it. -/
theorem Reaches.read {first : Option α} {value : α} {rest : α → Ranged ε β} {outcome : Except ε β}
    (found : first = some value) (onward : Reaches (rest value) outcome) :
    Reaches ((liftM first : Ranged ε α) >>= rest) outcome :=
  (reaches_read found).onward onward

theorem Reaches.ite {condition : Prop} [Decidable condition] {step other : Ranged ε α}
    {outcome outcome' : Except ε α} (holds : condition → Reaches step outcome)
    (fails : ¬ condition → Reaches other outcome') :
    Reaches (if condition then step else other) (if condition then outcome else outcome') := by
  split
  · exact holds ‹_›
  · exact fails ‹_›

/-- A fault is found before the steps that are guarded against it. -/
theorem Reaches.guard {condition : Prop} [Decidable condition] {fault : ε}
    {rest : PUnit → Ranged ε α} {outcome : Except ε α}
    (sound : ¬ condition → Reaches (rest ⟨⟩) outcome) :
    Reaches (if condition then throw fault >>= rest else rest ⟨⟩)
      (if condition then .error fault else outcome) :=
  Reaches.ite (fun _ => reaches_throw fault) sound

theorem Reaches.mapM {step : α → Ranged ε β} {outcome : α → Except ε β} {items : List α}
    (each : ∀ item ∈ items, Reaches (step item) (outcome item)) :
    Reaches (items.mapM step) (items.mapM outcome) := by
  induction items with
  | nil => exact reaches_pure []
  | cons item items ih =>
    rw [List.mapM_cons, List.mapM_cons]
    refine (each item (List.mem_cons_self ..)).bind fun value _ => ?_
    exact (ih fun later member => each later (List.mem_cons_of_mem _ member)).bind
      fun values _ => reaches_pure _

end Ranged

end ImageAudit
