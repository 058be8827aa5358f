import Mathlib.Data.List.Forall2

/-! # Steps that can fail

A sequence of steps succeeds exactly when each step does, with what the steps before it gave. A step
taken for each item of a list succeeds exactly when it succeeds for every item; otherwise it fails
as it does for the first item for which it fails. Items and results are paired lists then.
-/

namespace ImageAudit.Fallible

variable {ε α β γ : Type}

theorem ok_bind (value : α) (rest : α → Except ε β) : (.ok value >>= rest) = rest value := rfl

theorem bind_eq_ok_iff {first : Except ε α} {rest : α → Except ε β} {result : β} :
    (first >>= rest) = .ok result ↔ ∃ value, first = .ok value ∧ rest value = .ok result := by
  cases first <;> simp [bind, Except.bind]

theorem mapError_eq_ok_iff {step : Except ε α} {f : ε → γ} {result : α} :
    step.mapError f = .ok result ↔ step = .ok result := by
  cases step <;> simp [Except.mapError]

theorem bind_eq_error_iff {first : Except ε α} {rest : α → Except ε β} {failure : ε} :
    (first >>= rest) = .error failure ↔
      first = .error failure ∨ ∃ value, first = .ok value ∧ rest value = .error failure := by
  cases first <;> simp [bind, Except.bind]

theorem mapError_eq_error_iff {step : Except ε α} {f : ε → γ} {failure : γ} :
    step.mapError f = .error failure ↔ ∃ cause, step = .error cause ∧ f cause = failure := by
  cases step <;> simp [Except.mapError]

theorem mapM_eq_ok_iff {step : α → Except ε β} {items : List α} {results : List β} :
    items.mapM step = .ok results ↔
      List.Forall₂ (fun item result => step item = .ok result) items results := by
  induction items generalizing results with
  | nil =>
    rw [List.mapM_nil, List.forall₂_nil_left_iff]
    exact ⟨fun same => (Except.ok.inj same).symm, fun empty => empty ▸ rfl⟩
  | cons item items ih =>
    simp only [List.mapM_cons, bind_eq_ok_iff, List.forall₂_cons_left_iff, ih]
    constructor
    · rintro ⟨result, found, rest, others, same⟩
      exact ⟨result, rest, found, others, (Except.ok.inj same).symm⟩
    · rintro ⟨result, rest, found, others, rfl⟩
      exact ⟨result, found, rest, others, rfl⟩

/-- A step that succeeds for some items with what it makes of them makes the same of all. -/
theorem mapM_eq_ok_iff_map {step : α → Except ε β} {items : List α} {results : List β}
    {accepts : α → Prop} {f : α → β}
    (made : ∀ item result, step item = .ok result ↔ accepts item ∧ result = f item) :
    items.mapM step = .ok results ↔ (∀ item ∈ items, accepts item) ∧ results = items.map f := by
  rw [mapM_eq_ok_iff]
  induction items generalizing results with
  | nil => simp
  | cons item items ih =>
    rw [List.forall₂_cons_left_iff, List.forall_mem_cons, List.map_cons]
    constructor
    · rintro ⟨result, rest, first, others, rfl⟩
      obtain ⟨accepted, rfl⟩ := (made item result).mp first
      obtain ⟨accepted', rfl⟩ := ih.mp others
      exact ⟨⟨accepted, accepted'⟩, rfl⟩
    · rintro ⟨⟨accepted, accepted'⟩, rfl⟩
      exact ⟨f item, items.map f, (made item _).mpr ⟨accepted, rfl⟩, ih.mpr ⟨accepted', rfl⟩, rfl⟩

theorem map_then (step : Except ε α) (f : α → β) (rest : β → Except ε γ) :
    (step.map f >>= rest) = step >>= fun value => rest (f value) := by
  cases step <;> rfl

/-- The whole succeeds where it does for every item. -/
theorem exists_mapM {step : α → Except ε β} {items : List α}
    (sound : ∀ item ∈ items, ∃ result, step item = .ok result) :
    ∃ results, items.mapM step = .ok results := by
  induction items with
  | nil => exact ⟨[], rfl⟩
  | cons item items ih =>
    obtain ⟨result, found⟩ := sound item (List.mem_cons_self ..)
    obtain ⟨results, others⟩ := ih fun later member => sound later (List.mem_cons_of_mem _ member)
    refine ⟨result :: results, ?_⟩
    rw [List.mapM_cons, found, others]
    rfl

/-- The items that are left out may as well be taken along, with no result of their own. -/
theorem mapM_filter (p : α → Bool) (step : α → Except ε β) (items : List α) :
    (items.filter fun item => !p item).mapM step =
      (items.mapM fun item => if p item then .ok none else (step item).map some).map
        (List.filterMap id) := by
  induction items with
  | nil => rfl
  | cons item items ih =>
    cases left : p item with
    | true =>
      rw [List.filter_cons_of_neg (by simp [left]), List.mapM_cons, left, if_pos rfl, ok_bind, ih]
      cases (List.mapM _ items : Except ε (List (Option β))) <;> rfl
    | false =>
      rw [List.filter_cons_of_pos (by simp [left]), List.mapM_cons, List.mapM_cons, left,
        if_neg Bool.false_ne_true, map_then, ih]
      cases step item with
      | error fault => rfl
      | ok result => cases (List.mapM _ items : Except ε (List (Option β))) <;> rfl

/-- What is found first in two lists is paired, where paired items are sought alike. -/
theorem rel_find? {R : α → β → Prop} {p : α → Bool} {q : β → Bool} {items : List α}
    {others : List β} (pairs : List.Forall₂ R items others)
    (same : ∀ item other, R item other → p item = q other) :
    Option.Rel R (items.find? p) (others.find? q) := by
  induction pairs with
  | nil => exact .none
  | @cons item other items others related _ ih =>
    rw [List.find?_cons, List.find?_cons, same item other related]
    cases q other
    · exact ih
    · exact .some related

/-- Each item has its result at its place. -/
theorem getElem?_of_mapM {step : α → Except ε β} {items : List α} {results : List β}
    (succeeded : items.mapM step = .ok results) {position : Nat} {item : α}
    (present : items[position]? = some item) :
    ∃ result, results[position]? = some result ∧ step item = .ok result := by
  have pairs := mapM_eq_ok_iff.mp succeeded
  obtain ⟨inside, rfl⟩ := List.getElem?_eq_some_iff.mp present
  have inside' : position < results.length := pairs.length_eq ▸ inside
  exact ⟨results[position], List.getElem?_eq_getElem inside', pairs.get inside inside'⟩

/-- The first item for which the step fails decides how the whole fails. -/
theorem mapM_eq_error {step : α → Except ε β} {before after : List α} {item : α} {fault : ε}
    (sound : ∀ item ∈ before, ∃ result, step item = .ok result) (fails : step item = .error fault) :
    (before ++ item :: after).mapM step = .error fault := by
  induction before with
  | nil =>
    rw [List.nil_append, List.mapM_cons, fails]
    rfl
  | cons first before ih =>
    obtain ⟨result, found⟩ := sound first (List.mem_cons_self ..)
    rw [List.cons_append, List.mapM_cons, found,
      ih fun item member => sound item (List.mem_cons_of_mem _ member)]
    rfl

theorem mapM_eq_error_iff {step : α → Except ε β} {items : List α} {fault : ε} :
    items.mapM step = .error fault ↔ ∃ before item after, items = before ++ item :: after ∧
      (∀ earlier ∈ before, ∃ result, step earlier = .ok result) ∧ step item = .error fault := by
  constructor
  · intro failed
    induction items with
    | nil => cases failed
    | cons item items ih =>
      rw [List.mapM_cons] at failed
      cases found : step item with
      | error other =>
        rw [found] at failed
        cases failed
        exact ⟨[], item, items, rfl, fun _ member => absurd member List.not_mem_nil, found⟩
      | ok result =>
        rw [found, ok_bind] at failed
        cases rest : items.mapM step with
        | ok results =>
          rw [rest] at failed
          cases failed
        | error other =>
          rw [rest] at failed
          cases failed
          obtain ⟨before, last, after, rfl, sound, fails⟩ := ih rest
          exact ⟨item :: before, last, after, rfl,
            List.forall_mem_cons.mpr ⟨⟨result, found⟩, sound⟩, fails⟩
  · rintro ⟨before, item, after, rfl, sound, fails⟩
    exact mapM_eq_error sound fails

end ImageAudit.Fallible
