import LedgerQuery.Proofs.Numeral.Literal
import LedgerQuery.Proofs.Paging.Advance
import Mathlib.Data.Finset.Sort
import Mathlib.Data.Int.Order.Basic

/-!
# Scans of rows

Rows are integers in the direction of a scan, and tokens admit some of them.
The new bound of a page admits exactly the rows behind the last one that the
tokens before admitted, so it cuts the page off the rows: this is the main
statement.
-/

namespace LedgerQuery.Paging

/-! ## Directions -/

/-- The rows in the order of a scan. -/
def scan (order : Order) (rows : Finset Int) : List Int :=
  match order with
  | .asc => rows.sort (· ≤ ·)
  | .desc => rows.sort (· ≥ ·)

/-- Whether a row stands behind another in a scan. -/
def Past (order : Order) (last row : Int) : Prop :=
  (boundOperator order false).Holds row last

instance (order : Order) (last row : Int) : Decidable (Past order last row) :=
  inferInstanceAs (Decidable (Operator.Holds _ row last))

@[simp]
theorem past_asc {last row : Int} : Past .asc last row ↔ last < row := Iff.rfl

@[simp]
theorem past_desc {last row : Int} : Past .desc last row ↔ row < last := Iff.rfl

theorem Past.asymm
    {order : Order} {last row : Int}
    (past : Past order last row) :
    ¬Past order row last := by
  cases order with
  | asc => exact Int.lt_asymm past
  | desc => exact Int.lt_asymm past

/-- Every row of a scan stands behind those before it. -/
theorem pairwise_scan (order : Order) (rows : Finset Int) :
    (scan order rows).Pairwise (Past order) := by
  cases order with
  | asc => exact (Finset.sortedLT_sort rows).pairwise
  | desc => exact (Finset.sortedGT_sort rows).pairwise

theorem length_scan (order : Order) (rows : Finset Int) :
    (scan order rows).length = rows.card := by
  cases order with
  | asc => exact Finset.length_sort _
  | desc => exact Finset.length_sort _

/-- Behind the last row of a page are the rows that are not on it. -/
theorem filter_past
    {order : Order} {rows : List Int} (ordered : rows.Pairwise (Past order))
    {size : Nat} {last : Int} (isLast : (rows.take size).getLast? = some last) :
    rows.filter (fun row => Past order last row) = rows.drop size := by
  rcases List.getLast?_eq_some_iff.mp isLast with ⟨before, page⟩
  have whole : rows = before ++ last :: rows.drop size := by
    conv => lhs; rw [← List.take_append_drop size rows, page, List.append_assoc]
    rfl
  rw [whole, List.pairwise_append, List.pairwise_cons] at ordered
  rcases ordered with ⟨-, ⟨behind, -⟩, inFront⟩
  have noneBefore : before.filter (fun row => Past order last row) = [] := by
    rw [List.filter_eq_nil_iff]
    intro row member past
    exact (inFront row member last List.mem_cons_self).asymm (of_decide_eq_true past)
  have notLast : ¬Past order last last := fun past => past.asymm past
  have allBehind : (rows.drop size).filter (fun row => Past order last row) =
      rows.drop size := by
    rw [List.filter_eq_self]
    intro row member
    exact decide_eq_true (behind row member)
  conv => lhs; rw [whole]
  rw [List.filter_append, noneBefore, List.filter_cons_of_neg (by simp [notLast]), allBehind,
    List.nil_append]

/-! ## Admitted rows -/

/-- Whether a token admits a row. -/
def tokenAdmits (row : Int) (token : String) : Bool :=
  (Numeral.integer? (Token.parse token).value).any fun n =>
    (Token.parse token).operator.Holds row n

/-- Whether all tokens admit a row. -/
def admits (tokens : List String) (row : Int) : Bool :=
  tokens.all (tokenAdmits row)

/-- The rows that tokens leave of a scan. -/
def remaining (order : Order) (rows : Finset Int) (tokens : List String) : List Int :=
  (scan order rows).filter (admits tokens)

theorem length_remaining_le (order : Order) (rows : Finset Int) (tokens : List String) :
    (remaining order rows tokens).length ≤ rows.card := by
  rw [← length_scan order rows]
  exact List.length_filter_le _ _

theorem admits_iff
    {tokens : List String} {row : Int} :
    admits tokens row = true ↔ ∀ token ∈ tokens, tokenAdmits row token = true :=
  List.all_eq_true

theorem tokenAdmits_iff
    {row : Int} {token : String} :
    tokenAdmits row token = true ↔
      ∃ n, Numeral.integer? (Token.parse token).value = some n ∧
        (Token.parse token).operator.Holds row n := by
  cases spelled : Numeral.integer? (Token.parse token).value with
  | none => simp [tokenAdmits, spelled]
  | some n => simp [tokenAdmits, spelled]

/-- The new bound admits the rows behind the last one. -/
theorem tokenAdmits_boundText (order : Order) (last row : Int) :
    tokenAdmits row (boundText (boundOperator order false) (.int last)) =
      decide (Past order last row) := by
  have written : (Value.int last).plain = Numeral.writeInt last := rfl
  rw [tokenAdmits, parse_boundText, written, Numeral.integer?_writeInt]
  rfl

/-- A bound in the direction of the scan that admits a row admits the rows behind it. -/
theorem holds_of_past
    {order : Order} {operator : Operator} (scanBound : isScanBound order operator = true)
    {last row n : Int} (past : Past order last row) (holds : operator.Holds last n) :
    operator.Holds row n := by
  cases order with
  | asc =>
    rw [past_asc] at past
    cases operator with
    | gt => exact Int.lt_trans holds past
    | gte => exact Int.le_trans holds (Int.le_of_lt past)
    | eq | ne | lt | lte => cases scanBound
  | desc =>
    rw [past_desc] at past
    cases operator with
    | lt => exact Int.lt_trans past holds
    | lte => exact Int.le_trans (Int.le_of_lt past) holds
    | eq | ne | gt | gte => cases scanBound

/-- Dropped bounds are not missed: the new bound stands for them. -/
theorem admits_rebound
    {order : Order} {tokens : List String} {last : Int} (admitted : admits tokens last = true)
    (row : Int) :
    admits (keptTokens order tokens ++ [boundText (boundOperator order false) (.int last)]) row =
      (decide (Past order last row) && admits tokens row) := by
  have bound : tokenAdmits row (boundText (boundOperator order false) (.int last)) =
      decide (Past order last row) := tokenAdmits_boundText order last row
  rw [admits, List.all_append, List.all_cons, bound, List.all_nil, Bool.and_true, Bool.and_comm,
    Bool.eq_iff_iff, Bool.and_eq_true, Bool.and_eq_true, decide_eq_true_eq, admits_iff,
    List.all_eq_true]
  constructor
  · rintro ⟨past, kept⟩
    refine ⟨past, ?_⟩
    intro token member
    cases dropped : isScanBound order (Token.parse token).operator with
    | false => exact kept token (List.mem_filter.mpr ⟨member, by simp [dropped]⟩)
    | true =>
      rcases tokenAdmits_iff.mp (admits_iff.mp admitted token member) with ⟨n, spelled, holds⟩
      exact tokenAdmits_iff.mpr ⟨n, spelled, holds_of_past dropped past holds⟩
  · rintro ⟨past, all⟩
    exact ⟨past, fun token member => all token (List.mem_filter.mp member).1⟩

/-- The new bound cuts the page off the rows to come. -/
theorem remaining_rebound
    {order : Order} {rows : Finset Int} {tokens : List String} {size : Nat} {last : Int}
    (isLast : ((remaining order rows tokens).take size).getLast? = some last) :
    remaining order rows
        (keptTokens order tokens ++ [boundText (boundOperator order false) (.int last)]) =
      (remaining order rows tokens).drop size := by
  have admitted : admits tokens last = true := by
    have member := List.take_subset size _ (List.mem_of_getLast? isLast)
    exact (List.mem_filter.mp member).2
  have ordered : (remaining order rows tokens).Pairwise (Past order) :=
    (pairwise_scan order rows).filter (admits tokens)
  rw [← filter_past ordered isLast, remaining, remaining, List.filter_filter]
  exact List.filter_congr fun row _ => admits_rebound admitted row

/-- A token that admits no row behind another. -/
def Blocks (order : Order) (last : Int) (token : String) : Prop :=
  ∀ row, Past order last row → tokenAdmits row token = false

/-- Nothing is left behind a page where a token kept blocks the scan. -/
theorem drop_remaining_eq_nil
    {order : Order} {rows : Finset Int} {tokens : List String} {size : Nat} {last : Int}
    (isLast : ((remaining order rows tokens).take size).getLast? = some last)
    {token : String} (member : token ∈ keptTokens order tokens)
    (blocks : Blocks order last token) :
    (remaining order rows tokens).drop size = [] := by
  rw [← remaining_rebound isLast, remaining, List.filter_eq_nil_iff]
  intro row _ admitted
  have kept := admits_iff.mp admitted token (List.mem_append_left _ member)
  have past := admits_iff.mp admitted _ (List.mem_append_right _ (List.mem_singleton_self _))
  rw [tokenAdmits_boundText, decide_eq_true_eq] at past
  rw [blocks row past] at kept
  cases kept

end LedgerQuery.Paging
