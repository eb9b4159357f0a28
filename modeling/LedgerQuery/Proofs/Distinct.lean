import LedgerQuery.Clause.Compile
import LedgerQuery.Interval
import Mathlib.Data.List.Basic

/-!
# First occurrences

Repetitions are dropped where tokens are read and where criteria are retained.
Both walk through a list, remember the keys that they have kept and pass over an
element whose key is the same as one of these.  What is left is said by position
alone: the elements whose key is the same as that of no earlier element.

A walk compares with the kept keys only, not with all earlier ones.  This makes
no difference, as being the same is transitive.
-/

namespace LedgerQuery

/-! ## Lists -/

section FirstOccurrences

variable {α β κ : Type} {same : κ → κ → Bool} {key : α → κ}

/-- The elements whose key is the same as that of no earlier element. -/
def firstOccurrences (same : κ → κ → Bool) (key : α → κ) (items : List α) : List α :=
  (items.zipIdx.filter fun entry =>
    !(items.take entry.2).any fun earlier => same (key earlier) (key entry.1)).map Prod.fst

theorem firstOccurrences_cons (a : α) (items : List α) :
    firstOccurrences same key (a :: items) =
      a :: (firstOccurrences same key items).filter fun b => !same (key a) (key b) := by
  rw [firstOccurrences, firstOccurrences, List.zipIdx_cons', List.filter_cons_of_pos (by simp),
    List.map_cons, List.filter_map, List.map_map, List.filter_map, List.filter_filter]
  congr 1
  apply congrArg₂ List.map rfl
  apply List.filter_congr
  rintro ⟨b, i⟩ _
  simp

/-- No two first occurrences are the same. -/
theorem pairwise_firstOccurrences (items : List α) :
    (firstOccurrences same key items).Pairwise fun a b => same (key a) (key b) = false := by
  induction items with
  | nil => exact .nil
  | cons a items ih =>
    rw [firstOccurrences_cons, List.pairwise_cons]
    refine ⟨?_, ih.filter _⟩
    intro b member
    simpa using (List.mem_filter.mp member).2

theorem firstOccurrences_eq_self
    {items : List α} (distinct : items.Pairwise fun a b => same (key a) (key b) = false) :
    firstOccurrences same key items = items := by
  induction distinct with
  | nil => rfl
  | @cons a items others _ ih =>
    rw [firstOccurrences_cons, ih, List.filter_eq_self.mpr]
    intro b member
    simpa using others b member

/-- Nothing is dropped the second time. -/
theorem firstOccurrences_idem (items : List α) :
    firstOccurrences same key (firstOccurrences same key items) =
      firstOccurrences same key items :=
  firstOccurrences_eq_self (pairwise_firstOccurrences items)

theorem firstOccurrences_map (f : β → α) (items : List β) :
    firstOccurrences same key (items.map f) =
      (firstOccurrences same (fun b => key (f b)) items).map f := by
  induction items with
  | nil => rfl
  | cons b items ih =>
    rw [List.map_cons, firstOccurrences_cons, firstOccurrences_cons, ih, List.filter_map,
      List.map_cons]
    rfl

/-- First occurrences are taken before or after a choice among the elements, where the choice does
not part elements with the same key. -/
theorem firstOccurrences_filter
    {chosen : α → Bool} (respects : ∀ a b, same (key a) (key b) = true → chosen a = chosen b)
    (items : List α) :
    firstOccurrences same key (items.filter chosen) =
      (firstOccurrences same key items).filter chosen := by
  induction items with
  | nil => rfl
  | cons a items ih =>
    rw [firstOccurrences_cons]
    cases isChosen : chosen a with
    | true =>
      rw [List.filter_cons_of_pos isChosen, List.filter_cons_of_pos isChosen,
        firstOccurrences_cons, ih, List.filter_comm]
    | false =>
      have left : chosen a ≠ true := Bool.eq_false_iff.mp isChosen
      rw [List.filter_cons_of_neg left, List.filter_cons_of_neg left, ih, List.filter_filter]
      apply List.filter_congr
      intro b _
      rw [eq_comm, Bool.and_eq_left_iff_imp, Bool.not_eq_true', Bool.eq_false_iff]
      rintro isChosenToo repeated
      exact left ((respects a b repeated).trans isChosenToo)

theorem mem_of_mem_firstOccurrences
    {items : List α} {a : α} (member : a ∈ firstOccurrences same key items) :
    a ∈ items := by
  rcases List.mem_map.mp member with ⟨⟨b, i⟩, inside, rfl⟩
  exact List.fst_mem_of_mem_zipIdx (List.mem_of_mem_filter inside)

/-- Where only the same elements have the same key, nothing is lost but repetitions. -/
theorem mem_firstOccurrences
    (faithful : ∀ a b, same (key a) (key b) = true ↔ a = b) {items : List α} {a : α} :
    a ∈ firstOccurrences same key items ↔ a ∈ items := by
  refine ⟨mem_of_mem_firstOccurrences, ?_⟩
  intro member
  induction items with
  | nil => cases member
  | cons first items ih =>
    rw [firstOccurrences_cons, List.mem_cons, List.mem_filter]
    rcases List.mem_cons.mp member with rfl | later
    · exact Or.inl rfl
    · by_cases repeated : same (key first) (key a) = true
      · exact Or.inl ((faithful first a).mp repeated).symm
      · exact Or.inr ⟨ih later, by simpa using repeated⟩

theorem firstOccurrences_congr
    {κ' : Type} {same' : κ' → κ' → Bool} {key' : α → κ'}
    (agree : ∀ a b, same (key a) (key b) = same' (key' a) (key' b)) (items : List α) :
    firstOccurrences same key items = firstOccurrences same' key' items := by
  simp only [firstOccurrences, agree]

/-! ### Walks -/

/-- The first occurrences whose key is none of those seen before. -/
def newOccurrences (same : κ → κ → Bool) (key : α → κ) (seen : List κ) (items : List α) :
    List α :=
  (firstOccurrences same key items).filter fun b => !seen.any fun k => same k (key b)

theorem newOccurrences_nothing_seen (items : List α) :
    newOccurrences same key [] items = firstOccurrences same key items :=
  List.filter_eq_self.mpr fun _ _ => rfl

/-- An element that is not new is passed over: what is the same as it is not new either. -/
theorem newOccurrences_cons_of_seen
    (trans : ∀ j k l, same j k = true → same k l = true → same j l = true)
    {seen : List κ} {a : α} (known : (seen.any fun k => same k (key a)) = true) (items : List α) :
    newOccurrences same key seen (a :: items) = newOccurrences same key seen items := by
  rw [newOccurrences, newOccurrences, firstOccurrences_cons,
    List.filter_cons_of_neg (by rw [known]; decide), List.filter_filter]
  apply List.filter_congr
  intro b _
  rw [Bool.and_eq_left_iff_imp]
  intro unseen
  rcases List.any_eq_true.mp known with ⟨k, inside, sameKey⟩
  rw [Bool.not_eq_true', List.any_eq_false] at unseen
  rw [Bool.not_eq_true', Bool.eq_false_iff]
  intro repeated
  exact unseen k inside (trans k (key a) (key b) sameKey repeated)

/-- A new element is kept, and its key is seen from then on. -/
theorem newOccurrences_cons_of_new
    {seen : List κ} {a : α} (unseen : (seen.any fun k => same k (key a)) = false)
    (items : List α) :
    newOccurrences same key seen (a :: items) =
      a :: newOccurrences same key (seen ++ [key a]) items := by
  rw [newOccurrences, newOccurrences, firstOccurrences_cons,
    List.filter_cons_of_pos (by rw [unseen]; rfl), List.filter_filter]
  congr 1
  apply List.filter_congr
  intro b _
  simp

end FirstOccurrences

/-! ## Criteria -/

theorem Value.equal_trans {u v w : Value} (first : u.equal v = true) (second : v.equal w = true) :
    u.equal w = true := by
  rw [equal, Bool.and_eq_true, beq_iff_eq] at first second ⊢
  exact ⟨first.1.trans second.1, first.2⟩

theorem Criterion.same_trans (a b c : Criterion) (first : a.same b = true)
    (second : b.same c = true) :
    a.same c = true := by
  rw [same, Bool.and_eq_true, beq_iff_eq] at first second ⊢
  exact ⟨first.1.trans second.1, Value.equal_trans first.2 second.2⟩

theorem Value.atomOfFloat_ne_null (x : Numeral.Binary64) : atomOfFloat x ≠ .null := by
  rw [atomOfFloat]
  split
  · exact Atom.noConfusion
  · exact Atom.noConfusion
  · dsimp only
    split <;> exact Atom.noConfusion

theorem Value.isNull_iff {v : Value} : v.isNull = true ↔ v = .null := by
  cases v <;> simp [isNull]

theorem Value.isNull_iff_spelling {v : Value} : v.isNull = true ↔ v.spelling = [.null] := by
  cases v with
  | float x => simp [isNull, spelling, atomOfFloat_ne_null]
  | _ => simp [isNull, spelling]

/-- Only nothing is equal to nothing. -/
theorem Value.isNull_congr {u v : Value} (same : u.equal v = true) : u.isNull = v.isNull := by
  rw [equal, Bool.and_eq_true, beq_iff_eq] at same
  rw [Bool.eq_iff_iff, isNull_iff_spelling, isNull_iff_spelling, same.1]

/-- A criterion with its value in encoded form. -/
def Criterion.encoded (encoder : Option Encoder) (c : Criterion) : Except Fault Criterion := do
  checked (c.1, ← encodeWith encoder c.2)

/-- Adding criteria one after the other adds the first occurrences of those that are new. -/
theorem foldl_addNew (found seen : List Criterion) :
    found.foldl addNew seen = seen ++ newOccurrences Criterion.same id seen found := by
  induction found generalizing seen with
  | nil => exact (List.append_nil seen).symm
  | cons c found ih =>
    rw [List.foldl_cons, addNew]
    cases repeated : seen.any (·.same c) with
    | true =>
      have passed : newOccurrences Criterion.same id seen (c :: found) =
          newOccurrences Criterion.same id seen found :=
        newOccurrences_cons_of_seen Criterion.same_trans repeated found
      rw [if_pos rfl, ih, passed]
    | false =>
      have kept : newOccurrences Criterion.same id seen (c :: found) =
          c :: newOccurrences Criterion.same id (seen ++ [c]) found :=
        newOccurrences_cons_of_new repeated found
      rw [if_neg Bool.false_ne_true, ih, kept, List.append_assoc]
      rfl

end LedgerQuery
