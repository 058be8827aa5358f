/-! # Steps that change a state and can fail

A sequence of such steps succeeds exactly when each step does, in the state that the steps before it
left. What every step keeps is kept by any sequence of them; so a measure of the state that no step
raises is not raised.
-/

namespace ImageAudit.Stateful

variable {ε σ α β : Type}

theorem bind_apply (first : ExceptT ε (StateM σ) α) (rest : α → ExceptT ε (StateM σ) β)
    (state : σ) :
    (first >>= rest) state = match first state with
      | (.ok value, between) => rest value between
      | (.error failure, between) => (.error failure, between) := by
  simp only [bind, ExceptT.bind, ExceptT.mk, StateT.bind, ExceptT.bindCont]
  cases first state with
  | mk outcome between => cases outcome <;> rfl

theorem tryCatch_apply (step : ExceptT ε (StateM σ) α) (handle : ε → ExceptT ε (StateM σ) α)
    (state : σ) :
    tryCatch step handle state = match step state with
      | (.ok value, between) => (.ok value, between)
      | (.error failure, between) => handle failure between := by
  change (ExceptT.tryCatch step handle) state = _
  simp only [ExceptT.tryCatch, ExceptT.mk, bind, StateT.bind]
  cases step state with
  | mk outcome between => cases outcome <;> rfl

theorem lift_apply (step : Except ε α) (state : σ) :
    (liftM step : ExceptT ε (StateM σ) α) state = (step, state) := by
  cases step <;> rfl

theorem get_apply (state : σ) : (get : ExceptT ε (StateM σ) σ) state = (.ok state, state) := rfl

theorem set_apply (next state : σ) :
    (set next : ExceptT ε (StateM σ) PUnit) state = (.ok ⟨⟩, next) := rfl

theorem modify_apply (f : σ → σ) (state : σ) :
    (modify f : ExceptT ε (StateM σ) PUnit) state = (.ok ⟨⟩, f state) := rfl

theorem liftM_apply (step : StateM σ α) (state : σ) :
    (liftM step : ExceptT ε (StateM σ) α) state = (.ok (step state).1, (step state).2) := rfl

theorem adapt_apply {ε' : Type} (f : ε → ε') (step : ExceptT ε (StateM σ) α) (state : σ) :
    ExceptT.adapt f step state = ((step state).1.mapError f, (step state).2) := rfl

variable {state final : σ}

theorem bind_eq_ok_iff {first : ExceptT ε (StateM σ) α} {rest : α → ExceptT ε (StateM σ) β}
    {result : β} :
    (first >>= rest) state = (.ok result, final) ↔
      ∃ value between, first state = (.ok value, between) ∧
        rest value between = (.ok result, final) := by
  rw [bind_apply]
  cases first state with
  | mk outcome between =>
    cases outcome with
    | ok value =>
      constructor
      · exact fun ran => ⟨value, between, rfl, ran⟩
      · rintro ⟨_, _, same, ran⟩
        cases same
        exact ran
    | error failure =>
      constructor
      · intro ran
        cases ran
      · rintro ⟨_, _, same, _⟩
        cases same

theorem pure_eq_ok_iff {value result : α} :
    (pure value : ExceptT ε (StateM σ) α) state = (.ok result, final) ↔
      value = result ∧ state = final := by
  constructor
  · intro ran
    cases ran
    exact ⟨rfl, rfl⟩
  · rintro ⟨rfl, rfl⟩
    rfl

theorem lift_eq_ok_iff {step : Except ε α} {result : α} :
    (liftM step : ExceptT ε (StateM σ) α) state = (.ok result, final) ↔
      step = .ok result ∧ state = final := by
  rw [lift_apply, Prod.mk.injEq]

/-- What follows a check runs only where the check does not fail. -/
theorem check_eq_ok_iff {condition : Prop} [Decidable condition] {failure : ε}
    {rest : PUnit → ExceptT ε (StateM σ) β} {result : β} :
    (if condition then throw failure >>= rest else rest ⟨⟩) state = (.ok result, final) ↔
      ¬ condition ∧ rest ⟨⟩ state = (.ok result, final) := by
  by_cases fails : condition
  · rw [if_pos fails]
    constructor
    · intro ran
      cases ran
    · exact fun both => absurd fails both.1
  · rw [if_neg fails]
    exact ⟨fun ran => ⟨fails, ran⟩, And.right⟩

/-- The step succeeds, with a result and a state of which this holds. -/
def Succeeds (step : ExceptT ε (StateM σ) α) (state : σ) (holds : α → σ → Prop) : Prop :=
  ∃ value final, step state = (.ok value, final) ∧ holds value final

section Succeeds

variable {holds : α → σ → Prop}

theorem succeeds_of_eq {step : ExceptT ε (StateM σ) α} {value : α}
    (ran : step state = (.ok value, final)) (after : holds value final) :
    Succeeds step state holds :=
  ⟨value, final, ran, after⟩

theorem succeeds_pure {value : α} (after : holds value state) :
    Succeeds (pure value : ExceptT ε (StateM σ) α) state holds :=
  ⟨value, state, rfl, after⟩

theorem Succeeds.bind {first : ExceptT ε (StateM σ) α} {rest : α → ExceptT ε (StateM σ) β}
    {holds' : β → σ → Prop} (succeeds : Succeeds first state holds)
    (next : ∀ value between, holds value between → Succeeds (rest value) between holds') :
    Succeeds (first >>= rest) state holds' := by
  obtain ⟨value, between, ran, after⟩ := succeeds
  obtain ⟨result, final, ran', after'⟩ := next value between after
  exact ⟨result, final, bind_eq_ok_iff.mpr ⟨value, between, ran, ran'⟩, after'⟩

/-- What succeeds with one result in one state goes on from there. -/
theorem succeeds_bind_of_eq {first : ExceptT ε (StateM σ) α} {rest : α → ExceptT ε (StateM σ) β}
    {holds : β → σ → Prop} {value : α} {between : σ} (ran : first state = (.ok value, between))
    (next : Succeeds (rest value) between holds) : Succeeds (first >>= rest) state holds := by
  obtain ⟨result, final, ran', after⟩ := next
  exact ⟨result, final, bind_eq_ok_iff.mpr ⟨value, between, ran, ran'⟩, after⟩

end Succeeds

/-- A step that succeeds keeps what holds of the state. -/
def Keeps (holds : σ → Prop) (step : ExceptT ε (StateM σ) α) : Prop :=
  ∀ ⦃state value final⦄, holds state → step state = (.ok value, final) → holds final

section Keeps

variable {holds : σ → Prop}

theorem keeps_pure (value : α) : Keeps holds (pure value : ExceptT ε (StateM σ) α) := by
  intro state result final before ran
  obtain ⟨-, rfl⟩ := pure_eq_ok_iff.mp ran
  exact before

theorem keeps_throw (failure : ε) : Keeps holds (throw failure : ExceptT ε (StateM σ) α) := by
  intro state result final _ ran
  cases ran

theorem keeps_get : Keeps holds (get : ExceptT ε (StateM σ) σ) := by
  intro state result final before ran
  cases ran
  exact before

theorem keeps_modify {f : σ → σ} (keep : ∀ state, holds state → holds (f state)) :
    Keeps holds (modify f : ExceptT ε (StateM σ) PUnit) := by
  intro state result final before ran
  cases ran
  exact keep state before

theorem Keeps.bind {first : ExceptT ε (StateM σ) α} {rest : α → ExceptT ε (StateM σ) β}
    (keeps : Keeps holds first) (keeps' : ∀ value, Keeps holds (rest value)) :
    Keeps holds (first >>= rest) := by
  intro state result final before ran
  obtain ⟨value, between, ran, ran'⟩ := bind_eq_ok_iff.mp ran
  exact keeps' value (keeps before ran) ran'

theorem Keeps.check {condition : Prop} [Decidable condition] {failure : ε}
    {rest : PUnit → ExceptT ε (StateM σ) β} (keeps : Keeps holds (rest ⟨⟩)) :
    Keeps holds (if condition then throw failure >>= rest else rest ⟨⟩) :=
  fun _ _ _ before ran => keeps before (check_eq_ok_iff.mp ran).2

theorem Keeps.foldlM {step : β → α → ExceptT ε (StateM σ) β}
    (keeps : ∀ value item, Keeps holds (step value item)) (items : List α) (start : β) :
    Keeps holds (items.foldlM step start) := by
  induction items generalizing start with
  | nil => exact keeps_pure start
  | cons item items ih => exact (keeps start item).bind ih

end Keeps

/-- A step that succeeds does not raise the measure of the state. -/
structure Lowers (measure : σ → Nat) (step : ExceptT ε (StateM σ) α) : Prop where
  keeps : ∀ bound, Keeps (measure · ≤ bound) step

section Lowers

variable {measure : σ → Nat}

theorem Lowers.le {step : ExceptT ε (StateM σ) α} {value : α} (lowers : Lowers measure step)
    (ran : step state = (.ok value, final)) : measure final ≤ measure state :=
  lowers.keeps _ (Nat.le_refl _) ran

theorem lowers_of_le {step : ExceptT ε (StateM σ) α}
    (lower : ∀ ⦃state value final⦄, step state = (.ok value, final) →
      measure final ≤ measure state) : Lowers measure step :=
  ⟨fun _ _ _ _ before ran => Nat.le_trans (lower ran) before⟩

theorem lowers_pure (value : α) : Lowers measure (pure value : ExceptT ε (StateM σ) α) :=
  ⟨fun _ => keeps_pure value⟩

theorem lowers_throw (failure : ε) : Lowers measure (throw failure : ExceptT ε (StateM σ) α) :=
  ⟨fun _ => keeps_throw failure⟩

theorem lowers_get : Lowers measure (get : ExceptT ε (StateM σ) σ) := ⟨fun _ => keeps_get⟩

theorem Lowers.bind {first : ExceptT ε (StateM σ) α} {rest : α → ExceptT ε (StateM σ) β}
    (lowers : Lowers measure first) (lowers' : ∀ value, Lowers measure (rest value)) :
    Lowers measure (first >>= rest) :=
  ⟨fun bound => (lowers.keeps bound).bind fun value => (lowers' value).keeps bound⟩

end Lowers

end ImageAudit.Stateful
