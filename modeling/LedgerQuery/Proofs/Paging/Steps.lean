import LedgerQuery.Proofs.Paging.Advance
import LedgerQuery.Proofs.Search

/-!
# The steps as a search

A step past a last value sees the tokens of its own key only, and the steps before it leave these
alone.  All steps together therefore do what a search through the last values does: the first key
that has nothing left ends the scan, and the first step that fails is the fault of the link.

A step fails for its new bound where the scan goes on and the last value has too many digits.  The
main statement says which keys then decide the result.
-/

namespace LedgerQuery.Paging

open Link (Tokens keys)

/-! ## One step -/

/-- What a step past a last value comes to: whether the scan goes on, or a fault. -/
def outcome
    (order : Order) (codecs : List (String × Encoder)) (tokens : Tokens)
    (entry : String × Value) : Except Fault Bool :=
  (advanceKey order codecs tokens entry.1 entry.2).result.map Option.isSome

/-- No equality fixes a sort key, and its last value has too many digits to be written. -/
def IsOverlongLast (tokens : Tokens) (entry : String × Value) : Prop :=
  (tokensOf tokens entry.1).any isFixed = false ∧
    ∃ mark, LastValue.ofValue entry.2 = .ok mark ∧ ¬mark.value.IsShowable

/-- A step ends the scan, or its new bound cannot be written, or the scan goes on. -/
inductive StepsTo (ends overlong : Prop) : Except Fault Bool → Prop where
  | stop (ended : ends) : StepsTo ends overlong (.ok false)
  | broken (goesOn : ¬ends) (unwritable : overlong) :
    StepsTo ends overlong (.error (.unreadable .writeLimit))
  | further (goesOn : ¬ends) (written : ¬overlong) : StepsTo ends overlong (.ok true)

namespace StepsTo

variable {ends overlong : Prop} {result : Except Fault Bool}

theorem eq_false_iff (steps : StepsTo ends overlong result) : result = .ok false ↔ ends := by
  cases steps with
  | stop ended => exact iff_of_true rfl ended
  | broken goesOn _ => exact iff_of_false nofun goesOn
  | further goesOn _ => exact iff_of_false nofun goesOn

theorem eq_true_iff (steps : StepsTo ends overlong result) :
    result = .ok true ↔ ¬overlong ∧ ¬ends := by
  cases steps with
  | stop ended => exact iff_of_false nofun fun both => both.2 ended
  | broken _ unwritable => exact iff_of_false nofun fun both => both.1 unwritable
  | further goesOn written => exact iff_of_true rfl ⟨written, goesOn⟩

theorem eq_error_iff (steps : StepsTo ends overlong result) {fault : Fault} :
    result = .error fault ↔ fault = .unreadable .writeLimit ∧ overlong ∧ ¬ends := by
  cases steps with
  | stop ended => exact iff_of_false nofun fun all => all.2.2 ended
  | broken goesOn unwritable =>
    rw [Except.error.injEq, and_iff_left ⟨unwritable, goesOn⟩]
    exact eq_comm
  | further _ written => exact iff_of_false nofun fun all => written all.2.1

end StepsTo

section Step

variable {order : Order} {codecs : List (String × Encoder)} {tokens : Tokens} {key : String}
  {last : Value} {mark : LastValue}

theorem outcome_of_fixed
    (read : LastValue.ofValue last = .ok mark)
    (fixed : (tokensOf tokens key).any isFixed = true) :
    outcome order codecs tokens (key, last) = .ok true := by
  rw [outcome, advanceKey_of_fixed read fixed]
  rfl

theorem outcome_of_free
    (read : LastValue.ofValue last = .ok mark)
    (free : (tokensOf tokens key).any isFixed = false) :
    outcome order codecs tokens (key, last) =
      (checkKey order codecs tokens key mark).result >>= fun ended =>
        if ended then .ok false else mark.value.ifWritable true := by
  rw [outcome, advanceKey_of_free read free, Traced.result_bind]
  cases (checkKey order codecs tokens key mark).result with
  | error fault => rfl
  | ok ended =>
    rw [ok_bind, ok_bind]
    cases ended with
    | true => rfl
    | false => exact Value.map_ifWritable Option.isSome mark.value (some _)

theorem isOverlongLast_iff
    (read : LastValue.ofValue last = .ok mark)
    (free : (tokensOf tokens key).any isFixed = false) :
    IsOverlongLast tokens (key, last) ↔ ¬mark.value.IsShowable := by
  constructor
  · rintro ⟨-, mark', read', overlong⟩
    cases read.symm.trans read'
    exact overlong
  · intro overlong
    exact ⟨free, mark, read, overlong⟩

/-- A step past a free key does what its check and the digits of the last value say. -/
theorem stepsTo_of_checked
    (read : LastValue.ofValue last = .ok mark)
    (free : (tokensOf tokens key).any isFixed = false)
    {ended : Bool} (checked : (checkKey order codecs tokens key mark).result = .ok ended)
    {ends : Prop} (decides : ended = true ↔ ends) :
    StepsTo ends (IsOverlongLast tokens (key, last))
      (outcome order codecs tokens (key, last)) := by
  rw [outcome_of_free read free, checked, ok_bind]
  cases ended with
  | true => exact .stop (decides.mp rfl)
  | false =>
    have goesOn : ¬ends := fun ended => Bool.false_ne_true (decides.mpr ended)
    rw [if_neg Bool.false_ne_true]
    by_cases showable : mark.value.IsShowable
    · rw [Value.ifWritable_of_isShowable showable]
      exact .further goesOn fun overlong => (isOverlongLast_iff read free).mp overlong showable
    · rw [Value.ifWritable_of_not_isShowable showable]
      exact .broken goesOn ((isOverlongLast_iff read free).mpr showable)

theorem stepsTo_of_fixed
    (read : LastValue.ofValue last = .ok mark)
    (fixed : (tokensOf tokens key).any isFixed = true)
    {ends : Prop} (isFree : ends → (tokensOf tokens key).any isFixed = false) :
    StepsTo ends (IsOverlongLast tokens (key, last))
      (outcome order codecs tokens (key, last)) := by
  rw [outcome_of_fixed read fixed]
  refine .further (fun ended => ?_) fun overlong => ?_
  · rw [isFree ended] at fixed
    cases fixed
  · rw [overlong.1] at fixed
    cases fixed

theorem outcome_congr
    {other : Tokens} {entry : String × Value}
    (same : tokensOf other entry.1 = tokensOf tokens entry.1) :
    outcome order codecs other entry = outcome order codecs tokens entry := by
  rcases entry with ⟨key, last⟩
  cases read : LastValue.ofValue last with
  | error fault =>
    rw [outcome, outcome, advanceKey_of_error read, advanceKey_of_error read]
  | ok mark =>
    cases fixed : (tokensOf tokens key).any isFixed with
    | true =>
      rw [outcome_of_fixed read fixed, outcome_of_fixed read (same ▸ fixed)]
    | false =>
      rw [outcome_of_free read fixed, outcome_of_free read (same ▸ fixed), checkKey, checkKey, same]

end Step

/-! ## All steps -/

section Steps

variable {order : Order} {codecs : List (String × Encoder)} {tokens : Tokens} {last : Query}

/-- All steps together come to what the first step that does not go on comes to. -/
theorem map_result_advance_eq_iff
    {result : Except Fault Bool} (ends : result ≠ .ok true)
    (distinct : (keys tokens).Nodup) (distinctLast : (last.map Prod.fst).Nodup) :
    (advance order codecs tokens last).result.map Option.isSome = result ↔
      Reaches (fun entry => outcome order codecs tokens entry = .ok true)
        (fun entry => outcome order codecs tokens entry = result) last := by
  induction last generalizing tokens with
  | nil => exact iff_of_false ends.symm not_reaches_nil
  | cons entry rest ih =>
    rcases entry with ⟨key, value⟩
    rw [List.map_cons, List.nodup_cons] at distinctLast
    rw [reaches_cons_iff, advance_cons, Traced.result_bind, outcome]
    cases step : (advanceKey order codecs tokens key value).result with
    | error fault => exact (or_iff_left fun both => absurd both.1 nofun).symm
    | ok next =>
      cases next with
      | none => exact (or_iff_left fun both => absurd both.1 nofun).symm
      | some next =>
        have same := tokensOf_of_advanceKey_rest distinct distinctLast.1 step
        have others := ih (nodup_keys_of_advanceKey distinct step) distinctLast.2
        rw [reaches_congr (fun entry member => by rw [outcome_congr (same entry member)])
          (fun entry member => by rw [outcome_congr (same entry member)])] at others
        rw [ok_bind]
        exact others.trans (Iff.symm ((or_iff_right ends.symm).trans (and_iff_right rfl)))

theorem advance_eq_error_iff
    (distinct : (keys tokens).Nodup) (distinctLast : (last.map Prod.fst).Nodup) {fault : Fault} :
    (advance order codecs tokens last).result = .error fault ↔
      Reaches (fun entry => outcome order codecs tokens entry = .ok true)
        (fun entry => outcome order codecs tokens entry = .error fault) last := by
  have notFurther : (.error fault : Except Fault Bool) ≠ .ok true := nofun
  rw [← map_result_advance_eq_iff notFurther distinct distinctLast]
  cases (advance order codecs tokens last).result with
  | error other =>
    show Except.error other = .error fault ↔ Except.error other = .error fault
    rw [Except.error.injEq, Except.error.injEq]
  | ok next => exact iff_of_false nofun nofun

theorem advance_eq_none_iff
    (distinct : (keys tokens).Nodup) (distinctLast : (last.map Prod.fst).Nodup) :
    (advance order codecs tokens last).result = .ok none ↔
      Reaches (fun entry => outcome order codecs tokens entry = .ok true)
        (fun entry => outcome order codecs tokens entry = .ok false) last := by
  have notFurther : (.ok false : Except Fault Bool) ≠ .ok true := nofun
  rw [← map_result_advance_eq_iff notFurther distinct distinctLast]
  cases (advance order codecs tokens last).result with
  | error other => exact iff_of_false nofun nofun
  | ok next =>
    cases next with
    | none => exact iff_of_true rfl rfl
    | some next => exact iff_of_false nofun nofun

variable {ends : String × Value → Prop}

/-- The scan ends at a key in front of which everything can be written. -/
theorem advance_eq_none_iff_ends
    (distinct : (keys tokens).Nodup) (distinctLast : (last.map Prod.fst).Nodup)
    (steps : ∀ entry ∈ last, StepsTo (ends entry) (IsOverlongLast tokens entry)
      (outcome order codecs tokens entry)) :
    (advance order codecs tokens last).result = .ok none ↔
      Reaches (fun entry => ¬IsOverlongLast tokens entry) ends last := by
  rw [advance_eq_none_iff distinct distinctLast,
    ← @reaches_iff_first _ fun entry => ¬IsOverlongLast tokens entry]
  exact reaches_congr (fun entry member => (steps entry member).eq_true_iff)
    fun entry member => (steps entry member).eq_false_iff

/-- A new bound cannot be written in front of the end of the scan. -/
theorem advance_eq_error_iff_overlong
    (distinct : (keys tokens).Nodup) (distinctLast : (last.map Prod.fst).Nodup)
    (steps : ∀ entry ∈ last, StepsTo (ends entry) (IsOverlongLast tokens entry)
      (outcome order codecs tokens entry)) {fault : Fault} :
    (advance order codecs tokens last).result = .error fault ↔
      fault = .unreadable .writeLimit ∧
        Reaches (fun entry => ¬ends entry)
          (fun entry => IsOverlongLast tokens entry ∧ ¬ends entry) last := by
  rw [advance_eq_error_iff distinct distinctLast,
    reaches_congr (fun entry member => (steps entry member).eq_true_iff)
      fun entry member => (steps entry member).eq_error_iff]
  by_cases isLimit : fault = .unreadable .writeLimit
  · simp only [isLimit, true_and]
    rw [← @reaches_iff_first _ fun entry => ¬ends entry]
    refine reaches_congr (fun entry _ => ?_) fun _ _ => Iff.rfl
    rw [not_and_not_right, and_comm]
    exact and_congr_right fun goesOn => ⟨fun written overlong => absurd overlong written,
      fun onlyAtEnd overlong => goesOn (onlyAtEnd overlong)⟩
  · apply iff_of_false
    · rintro ⟨-, entry, -, -, ⟨impossible, -⟩, -⟩
      exact isLimit impossible
    · intro both
      exact isLimit both.1

end Steps

end LedgerQuery.Paging
