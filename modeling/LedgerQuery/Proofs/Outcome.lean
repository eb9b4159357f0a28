import LedgerQuery.Journal.Traced
import Mathlib.Data.List.Forall2

/-!
# Outcomes of sequences of steps

A sequence of steps succeeds exactly when every step does, so a result is taken
apart into the results of the steps.  Computations that report events obey the
monad laws, events included; two of them are compared by rewriting steps that
are equal.
-/

namespace LedgerQuery

section Outcome

variable {ε α β : Type}

theorem ok_bind (a : α) (next : α → Except ε β) : Except.ok a >>= next = next a := rfl

/-- A step and its continuation yield a result exactly when both do. -/
theorem bind_eq_ok
    {step : Except ε α} {next : α → Except ε β} {b : β} :
    step >>= next = .ok b ↔ ∃ a, step = .ok a ∧ next a = .ok b := by
  cases step with
  | error fault =>
    constructor
    · intro impossible
      cases impossible
    · rintro ⟨a, impossible, -⟩
      cases impossible
  | ok a =>
    constructor
    · intro done
      exact ⟨a, rfl, done⟩
    · rintro ⟨b, same, done⟩
      cases same
      exact done

theorem map_eq_ok {outcome : Except ε α} {f : α → β} {b : β} :
    outcome.map f = .ok b ↔ ∃ a, outcome = .ok a ∧ f a = b := by
  cases outcome with
  | error fault =>
    constructor
    · intro impossible
      cases impossible
    · rintro ⟨a, impossible, -⟩
      cases impossible
  | ok a =>
    constructor
    · intro done
      exact ⟨a, rfl, Except.ok.inj done⟩
    · rintro ⟨_, ⟨⟩, rfl⟩
      rfl

theorem map_eq_error {outcome : Except ε α} {f : α → β} {failure : ε} :
    outcome.map f = .error failure ↔ outcome = .error failure := by
  cases outcome <;> simp [Except.map]

theorem mapError_eq_ok {ε' : Type} {outcome : Except ε α} {f : ε → ε'} {a : α} :
    outcome.mapError f = .ok a ↔ outcome = .ok a := by
  cases outcome <;> simp [Except.mapError]

theorem mapM_cons_eq_ok
    {make : α → Except ε β} {a : α} {items : List α} {results : List β} :
    (a :: items).mapM make = .ok results ↔
      ∃ b others, make a = .ok b ∧ items.mapM make = .ok others ∧ results = b :: others := by
  rw [List.mapM_cons]
  constructor
  · intro made
    rcases bind_eq_ok.mp made with ⟨b, firstMade, made⟩
    rcases bind_eq_ok.mp made with ⟨others, othersMade, made⟩
    cases made
    exact ⟨b, others, firstMade, othersMade, rfl⟩
  · rintro ⟨b, others, firstMade, othersMade, rfl⟩
    exact bind_eq_ok.mpr ⟨b, firstMade, bind_eq_ok.mpr ⟨others, othersMade, rfl⟩⟩

theorem mapM_congr
    {make make' : α → Except ε β} {items : List α} (same : ∀ a ∈ items, make a = make' a) :
    items.mapM make = items.mapM make' := by
  induction items with
  | nil => rfl
  | cons a items ih =>
    rw [List.forall_mem_cons] at same
    rw [List.mapM_cons, List.mapM_cons, same.1, ih same.2]

/-- Results may be changed one by one or all at the end. -/
theorem mapM_map {γ : Type} (make : α → Except ε β) (f : β → γ) (items : List α) :
    items.mapM (fun a => (make a).map f) = (items.mapM make).map (List.map f) := by
  induction items with
  | nil => rfl
  | cons a items ih =>
    rw [List.mapM_cons, List.mapM_cons, ih]
    cases make a with
    | error fault => rfl
    | ok b => cases items.mapM make <;> rfl

/-- Steps that all succeed give the list of what they give. -/
theorem mapM_of_forall_ok
    {make : α → Except ε β} {f : α → β} {items : List α}
    (each : ∀ a ∈ items, make a = .ok (f a)) :
    items.mapM make = .ok (items.map f) := by
  induction items with
  | nil => rfl
  | cons a items ih =>
    rw [List.forall_mem_cons] at each
    exact mapM_cons_eq_ok.mpr ⟨f a, items.map f, each.1, ih each.2, rfl⟩

/-- Every element of a result was made from an element of the list. -/
theorem exists_of_mem_mapM
    {make : α → Except ε β} {items : List α} {results : List β}
    (made : items.mapM make = .ok results)
    {b : β} (member : b ∈ results) :
    ∃ a ∈ items, make a = .ok b := by
  induction items generalizing results with
  | nil =>
    cases made
    cases member
  | cons a items ih =>
    rcases mapM_cons_eq_ok.mp made with ⟨first, others, firstMade, othersMade, rfl⟩
    rcases List.mem_cons.mp member with rfl | member
    · exact ⟨a, List.mem_cons_self, firstMade⟩
    · rcases ih othersMade member with ⟨c, inside, cMade⟩
      exact ⟨c, List.mem_cons_of_mem a inside, cMade⟩

/-- Every element gives a result when each does by itself. -/
theorem mapM_eq_ok_iff
    {make : α → Except ε β} {items : List α} {results : List β} :
    items.mapM make = .ok results ↔ List.Forall₂ (fun a b => make a = .ok b) items results := by
  induction items generalizing results with
  | nil =>
    rw [List.forall₂_nil_left_iff]
    constructor
    · intro made
      cases made
      rfl
    · rintro rfl
      rfl
  | cons a items ih =>
    rw [mapM_cons_eq_ok, List.forall₂_cons_left_iff]
    simp only [ih]

theorem exists_forall₂
    {related : α → β → Prop} {items : List α}
    (each : ∀ a ∈ items, ∃ b, related a b) :
    ∃ results, List.Forall₂ related items results := by
  induction items with
  | nil => exact ⟨[], .nil⟩
  | cons a items ih =>
    rw [List.forall_mem_cons] at each
    rcases each with ⟨⟨first, firstRelated⟩, each⟩
    rcases ih each with ⟨others, othersRelated⟩
    exact ⟨first :: others, .cons firstRelated othersRelated⟩

theorem exists_mapM
    {make : α → Except ε β} {items : List α}
    (each : ∀ a ∈ items, ∃ b, make a = .ok b) :
    ∃ results, items.mapM make = .ok results := by
  rcases exists_forall₂ each with ⟨results, made⟩
  exact ⟨results, mapM_eq_ok_iff.mpr made⟩

end Outcome

namespace Traced

variable {α β γ : Type}

theorem bind_of_error
    {first : Traced α} {fault : Fault} (failed : first.result = .error fault)
    (second : α → Traced β) :
    first >>= second = ⟨first.events, .error fault⟩ := by
  show andThen first second = _
  rw [andThen, failed]

theorem bind_of_ok
    {first : Traced α} {a : α} (done : first.result = .ok a)
    (second : α → Traced β) :
    first >>= second = ⟨first.events ++ (second a).events, (second a).result⟩ := by
  show andThen first second = _
  rw [andThen, done]

theorem bind_pure_id (step : Traced α) : (step >>= fun a => pure (id a)) = step := by
  cases outcome : step.result with
  | error fault =>
    rw [bind_of_error outcome, ← outcome]
  | ok a =>
    rw [bind_of_ok outcome]
    show Traced.mk (step.events ++ []) (.ok a) = step
    rw [List.append_nil, ← outcome]

theorem bind_assoc'
    (first : Traced α) (second : α → Traced β) (third : β → Traced γ) :
    first >>= second >>= third = first >>= fun a => second a >>= third := by
  cases outcome : first.result with
  | error fault =>
    rw [bind_of_error outcome, bind_of_error outcome]
    rfl
  | ok a =>
    rw [bind_of_ok outcome, bind_of_ok outcome]
    cases next : (second a).result with
    | error fault => rw [bind_of_error rfl, bind_of_error next]
    | ok b => rw [bind_of_ok rfl, bind_of_ok next, List.append_assoc]

instance : LawfulMonad Traced :=
  LawfulMonad.mk' Traced bind_pure_id (fun _ _ => rfl) bind_assoc'

/-- What follows a step matters only for the result that the step has. -/
theorem bind_congr_of_ok
    {first : Traced α} {second third : α → Traced β}
    (same : ∀ a, first.result = .ok a → second a = third a) :
    first >>= second = first >>= third := by
  cases outcome : first.result with
  | error fault => rw [bind_of_error outcome, bind_of_error outcome]
  | ok a => rw [bind_of_ok outcome, bind_of_ok outcome, same a outcome]

end Traced

end LedgerQuery
