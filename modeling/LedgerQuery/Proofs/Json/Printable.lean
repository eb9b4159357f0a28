import LedgerQuery.Proofs.Json.Written

/-!
# JSON on one line

No control character below the blank stands in the JSON text of a value, and so
no line feed, whatever characters the texts inside the value hold.
-/

namespace LedgerQuery.Json

open Numeral (signedDecimal)

/-- No control character below the blank stands in a text. -/
def IsPrintable (cs : List Char) : Prop :=
  ∀ c ∈ cs, 0x20 ≤ c.toNat

theorem isPrintable_of_all {cs : List Char} (all : (cs.all fun c => 0x20 ≤ c.toNat) = true) :
    IsPrintable cs :=
  fun c member => of_decide_eq_true (List.all_eq_true.mp all c member)

theorem isPrintable_cons {c : Char} {cs : List Char} :
    IsPrintable (c :: cs) ↔ 0x20 ≤ c.toNat ∧ IsPrintable cs :=
  List.forall_mem_cons

theorem isPrintable_append {cs ds : List Char} :
    IsPrintable (cs ++ ds) ↔ IsPrintable cs ∧ IsPrintable ds :=
  List.forall_mem_append

theorem isPrintable_flatMap {α : Type} {xs : List α} {written : α → List Char}
    (each : ∀ x ∈ xs, IsPrintable (written x)) : IsPrintable (xs.flatMap written) := by
  intro c member
  obtain ⟨x, inside, member⟩ := List.mem_flatMap.mp member
  exact each x inside c member

theorem isPrintable_fixed : ∀ n < 0x20, IsPrintable (Text.Hex.fixed 4 n) := by
  have all : ∀ n < 0x20, ((Text.Hex.fixed 4 n).all fun c => 0x20 ≤ c.toNat) = true := by
    decide
  exact fun n control => isPrintable_of_all (all n control)

theorem printable_of_shortEscape? {c letter : Char} (short : shortEscape? c = some letter) :
    0x20 ≤ letter.toNat := by
  rw [shortEscape?] at short
  repeat' split at short
  all_goals cases short
  all_goals decide

theorem isPrintable_escape (c : Char) : IsPrintable (escape c) := by
  rw [escape]
  split
  · next special => rcases special with rfl | rfl <;> exact isPrintable_of_all rfl
  · split
    · next control =>
      split
      · next short =>
        exact isPrintable_cons.mpr ⟨by decide, isPrintable_cons.mpr
          ⟨printable_of_shortEscape? short, List.forall_mem_nil _⟩⟩
      · exact isPrintable_cons.mpr ⟨by decide, isPrintable_cons.mpr
          ⟨by decide, isPrintable_fixed c.toNat control⟩⟩
    · next printable =>
      exact isPrintable_cons.mpr ⟨Nat.not_lt.mp printable, List.forall_mem_nil _⟩

theorem isPrintable_string (s : String) : IsPrintable (string s) := by
  rw [string, isPrintable_append, isPrintable_cons]
  exact ⟨⟨by decide, isPrintable_flatMap fun c _ => isPrintable_escape c⟩, isPrintable_of_all rfl⟩

theorem isPrintable_signedDecimal (n : Int) : IsPrintable (signedDecimal n) := by
  rw [Numeral.signedDecimal_eq, isPrintable_append]
  refine ⟨?_, fun c digit => le_trans (by decide) (Numeral.toNat_of_mem_decimal digit).1⟩
  split <;> exact isPrintable_of_all rfl

theorem isPrintable_intercalate
    {texts : List (List Char)} (each : ∀ text ∈ texts, IsPrintable text) :
    IsPrintable ([','].intercalate texts) := by
  cases texts with
  | nil => exact List.forall_mem_nil _
  | cons text texts =>
    obtain ⟨first, others⟩ := List.forall_mem_cons.mp each
    rw [intercalate_cons, isPrintable_append]
    exact ⟨first, isPrintable_flatMap fun text member =>
      isPrintable_cons.mpr ⟨by decide, others text member⟩⟩

theorem isPrintable_array
    {elements : List (List Char)} (each : ∀ text ∈ elements, IsPrintable text) :
    IsPrintable (array elements) := by
  rw [array, isPrintable_append, isPrintable_cons]
  exact ⟨⟨by decide, isPrintable_intercalate each⟩, isPrintable_of_all rfl⟩

theorem isPrintable_object
    {members : List (List Char)} (each : ∀ text ∈ members, IsPrintable text) :
    IsPrintable (object members) := by
  rw [object, isPrintable_append, isPrintable_cons]
  exact ⟨⟨by decide, isPrintable_intercalate each⟩, isPrintable_of_all rfl⟩

theorem isPrintable_boolWord (b : Bool) : IsPrintable (boolWord b) := by
  cases b <;> exact isPrintable_of_all rfl

/-- The text of a value stands on one line, whatever its own texts hold. -/
theorem isPrintable_write {v : Value} (exact : v.IsExact) : IsPrintable (write v) := by
  induction exact with
  | @intro v notFinite inside ih =>
    cases v with
    | null => exact isPrintable_of_all rfl
    | bool b => exact isPrintable_boolWord b
    | int n => exact isPrintable_signedDecimal n
    | float x =>
      rw [write, notFinite x rfl]
      exact isPrintable_of_all rfl
    | text s => exact isPrintable_string s
    | bytes b =>
      rw [write_bytes]
      exact isPrintable_string _
    | list items | tuple items =>
      rw [write, writeItems_eq]
      exact isPrintable_array (List.forall_mem_map.mpr ih)
    | operator o => exact isPrintable_string o.word
    | entity id => exact isPrintable_string id.text
    | pair o v =>
      apply isPrintable_array
      rw [List.forall_mem_cons, List.forall_mem_singleton]
      exact ⟨isPrintable_string o.word, ih v (List.mem_singleton_self v)⟩
    | cursor v inclusive primary =>
      apply isPrintable_array
      rw [List.forall_mem_cons, List.forall_mem_cons, List.forall_mem_singleton]
      exact ⟨ih v (List.mem_singleton_self v), isPrintable_boolWord inclusive,
        isPrintable_boolWord primary⟩
    | map entries =>
      rw [write, writeMembers_eq]
      apply isPrintable_object
      rw [List.forall_mem_map]
      intro entry member
      rw [writeMember, isPrintable_append, isPrintable_cons]
      exact ⟨isPrintable_string entry.1, by decide, ih entry.2 (List.mem_map_of_mem member)⟩

end LedgerQuery.Json
