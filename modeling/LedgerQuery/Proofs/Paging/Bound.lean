import LedgerQuery.Proofs.Paging.Advance

/-!
# Bounds as whole numbers

Where values are whole numbers, a strict bound is the closed one beside it.  So the rows behind the
last one of a page begin with one row, and what a bound at the end admits of them is decided by this
row alone.  The main statement is that the comparison of the engine makes this decision for any
number of tokens, whatever codec reads them.
-/

namespace LedgerQuery

namespace Paging

/-- A codec converts a value to a whole number. -/
def Reads (codec : Encoder) (v : Value) (n : Int) : Prop :=
  ∃ w, codec v = .ok w ∧ w.integer = .ok n

theorem Reads.unique
    {codec : Encoder} {v : Value} {m n : Int} (first : Reads codec v m) (second : Reads codec v n) :
    m = n := by
  rcases first with ⟨w, converted, read⟩
  rcases second with ⟨w', converted', read'⟩
  rw [converted] at converted'
  cases converted'
  exact Except.ok.inj (read.symm.trans read')

/-! ## Rows and bounds -/

/-- A row stands behind the last one of a page, or it is the last one where this is not yet done. -/
def Behind (order : Order) (inclusive : Bool) (last row : Int) : Prop :=
  match order, inclusive with
  | .asc, false => last < row
  | .asc, true => last ≤ row
  | .desc, false => row < last
  | .desc, true => row ≤ last

/-- A token with a number admits a row unless it bounds the end and leaves the row out. -/
def EndAdmits (order : Order) (operator : Operator) (n row : Int) : Prop :=
  match order, operator with
  | .asc, .lt => row < n
  | .asc, .lte => row ≤ n
  | .desc, .gt => n < row
  | .desc, .gte => n ≤ row
  | _, _ => True

/-- A row is met in a scan no later than another. -/
def NoLater (order : Order) (first row : Int) : Prop :=
  match order with
  | .asc => first ≤ row
  | .desc => row ≤ first

instance (order : Order) (first row : Int) : Decidable (NoLater order first row) := by
  cases order <;> exact inferInstanceAs (Decidable (_ ≤ _))

/-- The number of the closed bound that says the same. -/
def closedNumber (operator : Operator) (n : Int) : Int :=
  match operator with
  | .gt => n + 1
  | .lt => n + -1
  | _ => n

/-- The first row that may come behind the last one of a page. -/
def firstBehind (order : Order) (inclusive : Bool) (last : Int) : Int :=
  closedNumber (boundOperator order inclusive) last

section Rows

variable {order : Order} {operator : Operator} {inclusive : Bool} {last row n : Int}

theorem NoLater.refl (order : Order) (row : Int) : NoLater order row row := by
  cases order <;> exact Int.le_refl row

theorem behind_iff : Behind order inclusive last row ↔
    NoLater order (firstBehind order inclusive last) row := by
  cases order <;> cases inclusive <;>
    simp only [Behind, NoLater, firstBehind, closedNumber, boundOperator] <;> omega

theorem endAdmits_of_not_isEndBound (other : isEndBound order operator = false) :
    EndAdmits order operator n row := by
  cases order with
  | asc =>
    cases operator with
    | lt | lte => cases other
    | eq | ne | gt | gte => trivial
  | desc =>
    cases operator with
    | gt | gte => cases other
    | eq | ne | lt | lte => trivial

theorem endAdmits_iff (endBound : isEndBound order operator = true) :
    EndAdmits order operator n row ↔ NoLater order row (closedNumber operator n) := by
  cases order with
  | asc =>
    cases operator with
    | lt => simp only [EndAdmits, NoLater, closedNumber]; omega
    | lte => exact Iff.rfl
    | eq | ne | gt | gte => cases endBound
  | desc =>
    cases operator with
    | gt => simp only [EndAdmits, NoLater, closedNumber]; omega
    | gte => exact Iff.rfl
    | eq | ne | lt | lte => cases endBound

theorem endAdmits_of_holds (holds : operator.Holds row n) : EndAdmits order operator n row := by
  cases order with
  | asc =>
    cases operator with
    | lt | lte => exact holds
    | eq | ne | gt | gte => trivial
  | desc =>
    cases operator with
    | gt | gte => exact holds
    | eq | ne | lt | lte => trivial

/-- A bound at the end that admits a row admits those before it. -/
theorem EndAdmits.earlier
    (admitted : EndAdmits order operator n row) {first : Int} (earlier : NoLater order first row) :
    EndAdmits order operator n first := by
  cases order with
  | asc =>
    cases operator with
    | lt => exact Int.lt_of_le_of_lt earlier admitted
    | lte => exact Int.le_trans earlier admitted
    | eq | ne | gt | gte => trivial
  | desc =>
    cases operator with
    | gt => exact Int.lt_of_lt_of_le admitted earlier
    | gte => exact Int.le_trans admitted earlier
    | eq | ne | lt | lte => trivial

end Rows

/-! ## The comparison -/

section Comparison

variable {order : Order} {codec : Encoder}

theorem exists_closedBound {v : Value} {n : Int} (read : v.integer = .ok n) (operator : Operator) :
    ∃ w, closedBound operator v = .ok w ∧ w.integer = .ok (closedNumber operator n) := by
  cases operator with
  | gt => exact ⟨_, Value.shift_of_integer read 1, rfl⟩
  | lt => exact ⟨_, Value.shift_of_integer read (-1), rfl⟩
  | eq | ne | lte | gte => exact ⟨v, rfl, read⟩

theorem passes_of_integer
    {boundary limit : Value} {first n : Int}
    (isFirst : boundary.integer = .ok first) (isLimit : limit.integer = .ok n) :
    passes order boundary limit = .ok (decide ¬NoLater order first n) := by
  cases order with
  | asc =>
    rw [passes, Value.less_of_integer isLimit isFirst]
    simp only [NoLater, Int.not_le]
  | desc =>
    rw [passes, Value.less_of_integer isFirst isLimit]
    simp only [NoLater, Int.not_le]

theorem exhaustedBy_cons
    {token : String} {limit : Value}
    (read : codec (.text (Token.parse token).value) = .ok limit)
    (order : Order) (boundary : Value) (tokens : List String) :
    exhaustedBy order codec boundary (token :: tokens) =
      if isEndBound order (Token.parse token).operator = true then
        closedBound (Token.parse token).operator limit >>= fun closed =>
          passes order boundary closed >>= fun ended =>
            if ended then .ok true else exhaustedBy order codec boundary tokens
      else exhaustedBy order codec boundary tokens := by
  rw [exhaustedBy, read]
  rfl

/-- One token with a number ends the scan or leaves the decision to the others. -/
theorem exhaustedBy_cons_of_reads
    {token : String} {n : Int} (reads : Reads codec (.text (Token.parse token).value) n)
    {boundary : Value} {first : Int} (isFirst : boundary.integer = .ok first)
    (tokens : List String) :
    (EndAdmits order (Token.parse token).operator n first ∧
        exhaustedBy order codec boundary (token :: tokens) =
          exhaustedBy order codec boundary tokens) ∨
      (¬EndAdmits order (Token.parse token).operator n first ∧
        exhaustedBy order codec boundary (token :: tokens) = .ok true) := by
  rcases reads with ⟨v, converted, isNumber⟩
  rw [exhaustedBy_cons converted]
  cases endBound : isEndBound order (Token.parse token).operator with
  | false => exact Or.inl ⟨endAdmits_of_not_isEndBound endBound, if_neg Bool.false_ne_true⟩
  | true =>
    rcases exists_closedBound isNumber (Token.parse token).operator with ⟨limit, closed, isLimit⟩
    rw [if_pos rfl, closed, ok_bind, passes_of_integer isFirst isLimit, ok_bind,
      endAdmits_iff endBound]
    by_cases admitted : NoLater order first (closedNumber (Token.parse token).operator n)
    · refine Or.inl ⟨admitted, ?_⟩
      rw [decide_eq_false (not_not_intro admitted), if_neg Bool.false_ne_true]
    · refine Or.inr ⟨admitted, ?_⟩
      rw [decide_eq_true admitted, if_pos rfl]

/-- All tokens with numbers admit a row, as far as they bound the end. -/
def AdmitAtEnd (order : Order) (codec : Encoder) (tokens : List String) (row : Int) : Prop :=
  ∀ token ∈ tokens, ∀ n, Reads codec (.text (Token.parse token).value) n →
    EndAdmits order (Token.parse token).operator n row

/-- Where all tokens have numbers, the scan has ended exactly when the tokens leave out the first
row to come. -/
theorem exists_exhaustedBy
    {tokens : List String}
    (readable : ∀ token ∈ tokens, ∃ n, Reads codec (.text (Token.parse token).value) n)
    {boundary : Value} {first : Int} (isFirst : boundary.integer = .ok first) :
    ∃ ended, exhaustedBy order codec boundary tokens = .ok ended ∧
      (ended = true ↔ ¬AdmitAtEnd order codec tokens first) := by
  induction tokens with
  | nil =>
    refine ⟨false, rfl, iff_of_false Bool.false_ne_true (not_not_intro ?_)⟩
    intro token impossible
    cases impossible
  | cons token tokens ih =>
    rw [List.forall_mem_cons] at readable
    rcases readable with ⟨⟨n, reads⟩, readable⟩
    have own : (∀ m, Reads codec (.text (Token.parse token).value) m →
        EndAdmits order (Token.parse token).operator m first) ↔
        EndAdmits order (Token.parse token).operator n first := by
      constructor
      · intro all
        exact all n reads
      · intro admitted m readsToo
        rwa [readsToo.unique reads]
    rw [AdmitAtEnd, List.forall_mem_cons, own]
    rcases exhaustedBy_cons_of_reads reads isFirst tokens with
      ⟨admitted, same⟩ | ⟨leftOut, stopped⟩
    · rw [same, and_iff_right admitted]
      exact ih readable
    · exact ⟨true, stopped, iff_of_true rfl fun both => leftOut both.1⟩

end Comparison

end Paging

end LedgerQuery
