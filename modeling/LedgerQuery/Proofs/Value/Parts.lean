import LedgerQuery.Value.Basic
import Mathlib.Algebra.Group.Int.Defs

/-!
# Values inside values

A sequence, a mapping and a pair hold other values, which may hold others again.
The text of a value cannot be written when a whole number of too many digits
stands inside it, at whatever depth, and there is no other reason.
-/

namespace LedgerQuery

namespace Value

/-- The values that a value holds. -/
def parts : Value → List Value
  | list items | tuple items => items
  | pair _ v | cursor v _ _ => [v]
  | map entries => entries.map Prod.snd
  | _ => []

/-! ## Values that cannot be shown -/

/-- Whether a value is a whole number. -/
def isInt : Value → Bool
  | int _ => true
  | _ => false

theorem isInt_iff {v : Value} : v.isInt = true ↔ ∃ n, v = int n := by
  cases v with
  | int n => exact iff_of_true rfl ⟨n, rfl⟩
  | _ => exact iff_of_false Bool.false_ne_true nofun

/-- The text of a value shows by a bracket or a colon that the value holds others. -/
theorem parts_eq_nil_or_mem_plain {v : Value} (notInt : v.isInt = false) :
    v.parts = [] ∨ ∃ c ∈ ['[', '(', '\x7b', ':'], c ∈ v.plain.toList := by
  cases v with
  | int => cases notInt
  | list items =>
    refine Or.inr ⟨'[', by decide, ?_⟩
    show _ ∈ ("[" ++ ", ".intercalate (quotedItems items) ++ "]").toList
    simp
  | tuple items =>
    refine Or.inr ⟨'(', by decide, ?_⟩
    show _ ∈ ("(" ++ ", ".intercalate (quotedItems items) ++ _).toList
    simp
  | pair o v =>
    refine Or.inr ⟨':', by decide, ?_⟩
    show _ ∈ (o.word ++ ":" ++ v.plain).toList
    simp
  | cursor v inclusive primary =>
    refine Or.inr ⟨'(', by decide, ?_⟩
    show _ ∈ ("CursorValue(value=" ++ v.quoted ++ ", inclusive=" ++ boolWord inclusive ++
      ", primary=" ++ boolWord primary ++ ")").toList
    simp
  | map entries =>
    refine Or.inr ⟨'\x7b', by decide, ?_⟩
    show _ ∈ (String.ofList ['\x7b'] ++ ", ".intercalate (quotedEntries entries) ++
      String.ofList ['\x7d']).toList
    simp
  | null | bool | float | text | bytes | operator | entity => exact Or.inl rfl

/-- A whole number stands inside a value, at whatever depth. -/
inductive Mentions (n : Int) : Value → Prop where
  | int : Mentions n (.int n)
  | part {v part : Value} (member : part ∈ v.parts) (inside : Mentions n part) : Mentions n v

/-- Every number inside a value is short enough to be written. -/
def IsShowable (v : Value) : Prop :=
  ∀ n, v.Mentions n → n.natAbs < Nat.pow 10 digitLimit

theorem isShowable_int_iff {n : Int} :
    (int n).IsShowable ↔ n.natAbs < Nat.pow 10 digitLimit := by
  constructor
  · intro showable
    exact showable n .int
  · rintro short _ (_ | ⟨impossible, -⟩)
    · exact short
    · cases impossible

theorem isShowable_int_of_lt
    {n : Int} (count : Nat) (few : count ≤ digitLimit) (short : n.natAbs < Nat.pow 10 count) :
    (int n).IsShowable :=
  isShowable_int_iff.mpr (Numeral.isWritable_iff.mp (Numeral.isWritable_of_lt count few short))

/-- The least number of too many digits. -/
theorem not_isShowable_pow : ¬(int (10 ^ digitLimit)).IsShowable := by
  have irrefl (k : Nat) : ¬((10 : Int) ^ k).natAbs < Nat.pow 10 k := by
    rw [Int.natAbs_pow]
    exact Nat.lt_irrefl _
  exact mt isShowable_int_iff.mp (irrefl digitLimit)

theorem isShowable_iff_parts {v : Value} (notInt : v.isInt = false) :
    v.IsShowable ↔ ∀ part ∈ v.parts, part.IsShowable := by
  constructor
  · intro showable part member n inside
    exact showable n (.part member inside)
  · intro each n inside
    cases inside with
    | int => cases notInt
    | part member inside => exact each _ member n inside

theorem isShowable_of_parts_eq_nil {v : Value} (notInt : v.isInt = false) (atom : v.parts = []) :
    v.IsShowable :=
  (isShowable_iff_parts notInt).mpr (atom ▸ List.forall_mem_nil _)

@[simp]
theorem isShowable_null : null.IsShowable :=
  isShowable_of_parts_eq_nil rfl rfl

@[simp]
theorem isShowable_bool (b : Bool) : (bool b).IsShowable :=
  isShowable_of_parts_eq_nil rfl rfl

@[simp]
theorem isShowable_text (s : String) : (text s).IsShowable :=
  isShowable_of_parts_eq_nil rfl rfl

mutual

/-- A number of too many digits is found wherever there is one. -/
theorem isWritable_iff : (v : Value) → (v.isWritable = true ↔ v.IsShowable)
  | .int n => by
    rw [isWritable, isShowable_int_iff, Numeral.isWritable_iff]
  | .list items | .tuple items => by
    rw [isShowable_iff_parts rfl, parts, isWritable, areWritable_iff items]
  | .pair _ v | .cursor v _ _ => by
    rw [isShowable_iff_parts rfl, parts, List.forall_mem_singleton, isWritable, isWritable_iff v]
  | .map entries => by
    rw [isShowable_iff_parts rfl, parts, List.forall_mem_map, isWritable,
      areWritableEntries_iff entries]
  | .null | .bool _ | .float _ | .text _ | .bytes _ | .operator _ | .entity _ =>
    iff_of_true rfl (isShowable_of_parts_eq_nil rfl rfl)

theorem areWritable_iff :
    (items : List Value) → (areWritable items = true ↔ ∀ v ∈ items, v.IsShowable)
  | [] => iff_of_true rfl (List.forall_mem_nil _)
  | v :: vs => by
    rw [areWritable, Bool.and_eq_true, List.forall_mem_cons, isWritable_iff v, areWritable_iff vs]

theorem areWritableEntries_iff :
    (entries : List (String × Value)) →
      (areWritableEntries entries = true ↔ ∀ entry ∈ entries, entry.2.IsShowable)
  | [] => iff_of_true rfl (List.forall_mem_nil _)
  | (_, v) :: rest => by
    rw [areWritableEntries, Bool.and_eq_true, List.forall_mem_cons, isWritable_iff v,
      areWritableEntries_iff rest]

end

section Texts

variable {α : Type} {v : Value}

theorem ifWritable_of_isShowable (showable : v.IsShowable) (a : α) : v.ifWritable a = .ok a :=
  if_pos ((isWritable_iff v).mpr showable)

theorem ifWritable_of_not_isShowable (overlong : ¬v.IsShowable) (a : α) :
    v.ifWritable a = .error (.unreadable .writeLimit) :=
  if_neg (mt (isWritable_iff v).mp overlong)

/-- What goes on behind a text goes on behind the test of the text. -/
theorem ifWritable_bind_of_eq_ok {β : Type} {next : α → Except Fault β} {a : α} {b : β}
    (goesOn : next a = .ok b) : (v.ifWritable a >>= next) = v.ifWritable b := by
  by_cases showable : v.IsShowable
  · rw [ifWritable_of_isShowable showable, ifWritable_of_isShowable showable]
    exact goesOn
  · rw [ifWritable_of_not_isShowable showable, ifWritable_of_not_isShowable showable]
    rfl

theorem map_ifWritable {β : Type} (f : α → β) (v : Value) (a : α) :
    (v.ifWritable a).map f = v.ifWritable (f a) :=
  ifWritable_bind_of_eq_ok rfl

theorem ifWritable_eq_ok_iff {a b : α} : v.ifWritable a = .ok b ↔ v.IsShowable ∧ a = b := by
  by_cases showable : v.IsShowable
  · rw [ifWritable_of_isShowable showable, Except.ok.injEq, and_iff_right showable]
  · rw [ifWritable_of_not_isShowable showable]
    exact iff_of_false nofun fun both => showable both.1

theorem ifWritable_eq_error_iff {a : α} {fault : Fault} :
    v.ifWritable a = .error fault ↔ ¬v.IsShowable ∧ fault = .unreadable .writeLimit := by
  by_cases showable : v.IsShowable
  · rw [ifWritable_of_isShowable showable]
    exact iff_of_false nofun fun both => both.1 showable
  · rw [ifWritable_of_not_isShowable showable, Except.error.injEq, and_iff_right showable]
    exact eq_comm

theorem shown_of_isShowable (showable : v.IsShowable) : v.shown = .ok v.quoted :=
  ifWritable_of_isShowable showable _

theorem shown_of_not_isShowable (overlong : ¬v.IsShowable) :
    v.shown = .error (.unreadable .writeLimit) :=
  ifWritable_of_not_isShowable overlong _

theorem written_of_isShowable (showable : v.IsShowable) : v.written = .ok v.plain :=
  ifWritable_of_isShowable showable _

theorem written_of_not_isShowable (overlong : ¬v.IsShowable) :
    v.written = .error (.unreadable .writeLimit) :=
  ifWritable_of_not_isShowable overlong _

theorem written_eq_ok_iff {s : String} : v.written = .ok s ↔ v.IsShowable ∧ v.plain = s :=
  ifWritable_eq_ok_iff

@[simp]
theorem written_text (s : String) : (text s).written = .ok s :=
  rfl

end Texts

end Value

end LedgerQuery
