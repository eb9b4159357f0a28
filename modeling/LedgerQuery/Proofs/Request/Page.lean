import LedgerQuery.Proofs.Numeral.Literal
import LedgerQuery.Proofs.Request.Validate
import LedgerQuery.Request.Page
import Mathlib

/-!
# Pages of accepted requests

The validators take a page size and a direction as tokens, an operator's word in
front included, but the page is read from the whole text.  The two agree on bare
tokens alone: the main statement is that an accepted request has a page exactly
when the last token for the size and the last one for the direction have no
operator's word in front.
-/

namespace LedgerQuery

/-! ## Bare tokens -/

namespace Token

/-- A token that is its value: it has no operator's word in front. -/
def IsBare (s : String) : Prop :=
  (parse s).value = s

instance (s : String) : Decidable (IsBare s) :=
  inferInstanceAs (Decidable ((parse s).value = s))

theorem colon_of_split
    {cs : List Char} {parts : List Char × List Char} (isSplit : split cs = some parts) :
    ':' ∈ cs := by
  rw [split] at isSplit
  split at isSplit
  · cases isSplit
  · next c rest behind =>
    have stopped := List.head?_dropWhile_not (· != ':') cs
    rw [behind] at stopped
    have colon : c = ':' := by simpa using stopped
    have member : c ∈ cs.dropWhile (· != ':') := by
      rw [behind]
      exact List.mem_cons_self
    rw [← colon]
    exact (List.dropWhile_sublist _).subset member

theorem colon_of_not_isBare {s : String} (notBare : ¬IsBare s) : ':' ∈ s.toList := by
  rw [IsBare, parse] at notBare
  split at notBare
  · exact absurd rfl notBare
  · next head rest isSplit => exact colon_of_split isSplit

end Token

/-! ## Directions -/

/-- A text with a colon is no direction. -/
theorem Order.noColon_of_ofValue {s : String} {order : Order}
    (read : ofValue (.text s) = .ok order) :
    ':' ∉ s.toList := by
  rw [ofValue] at read
  split at read
  · next known found =>
    have spelled : known.word = s := word_of_ofWord? found
    rw [← spelled]
    cases known <;> decide
  · cases read

namespace Request

/-! ## Last tokens -/

theorem integer_of_longText?
    {s : String} {n : Nat} (read : Field.longText? s = some n) :
    Numeral.integer s = .ok n := by
  rw [Field.longText?] at read
  split at read
  · next isRun =>
    cases read
    simp only [Numeral.isRun, Bool.and_eq_true, decide_eq_true_eq, List.all_eq_true] at isRun
    rcases isRun with ⟨⟨digits, notEmpty⟩, few⟩
    apply Numeral.integer_of_digits digits (List.ne_nil_of_length_pos notEmpty)
    exact Nat.le_trans few (by decide)
  · cases read

/-- The value of an accepted token for the page size is a positive number. -/
theorem exists_integer_of_accepts
    {s : String} (accepts : acceptsToken (validatorOf .limit) s = true) :
    ∃ n : Int, 1 ≤ n ∧ Numeral.integer (Token.parse s).value = .ok n := by
  have both : ((Token.parse s).operator == .eq &&
    Field.isPositiveLong (.text (Token.parse s).value) false) = true := accepts
  rw [Bool.and_eq_true, Field.isPositiveLong] at both
  rcases both with ⟨-, long⟩
  split at long
  · next n read =>
    rw [Field.isLong, Bool.and_eq_true, decide_eq_true_eq] at long
    exact ⟨n, long.1, integer_of_longText? read⟩
  · cases long
  · intro n
    exact Value.noConfusion

/-- The value of an accepted token for the direction is one. -/
theorem exists_order_of_accepts
    {s : String} (accepts : acceptsToken (validatorOf .order) s = true) :
    ∃ order : Order, Order.ofWord? (Token.parse s).value = some order := by
  have both : ((Token.parse s).operator == .eq &&
    (Order.ofWord? (Token.parse s).value).isSome) = true := accepts
  rw [Bool.and_eq_true] at both
  exact Option.isSome_iff_exists.mp both.2

/-! ## Pages -/

/-- The page size that the last token for it stands for, if there is one. -/
def IsLimit (config : Config) (last : Option String) (limit : Int) : Prop :=
  match last with
  | none => limit = config.defaultLimit
  | some s =>
    ∃ n, Numeral.integer? (Token.parse s).value = some n ∧ limit = min n config.maxLimit

/-- The direction that the last token for it stands for, if there is one. -/
def IsDirection (fallback : Order) (last : Option String) (order : Order) : Prop :=
  match last with
  | none => order = fallback
  | some s => order.word = (Token.parse s).value

theorem exists_isLimit
    (config : Config)
    {sizes : List String} (accepts : ∀ s ∈ sizes, acceptsToken (validatorOf .limit) s = true) :
    ∃ limit, IsLimit config sizes.getLast? limit := by
  cases last : sizes.getLast? with
  | none => exact ⟨_, rfl⟩
  | some s =>
    rcases exists_integer_of_accepts (accepts s (List.mem_of_getLast? last)) with ⟨n, -, spelled⟩
    exact ⟨_, n, Numeral.integer?_of_integer spelled, rfl⟩

theorem exists_isDirection
    (fallback : Order)
    {orders : List String} (accepts : ∀ s ∈ orders, acceptsToken (validatorOf .order) s = true) :
    ∃ order, IsDirection fallback orders.getLast? order := by
  cases last : orders.getLast? with
  | none => exact ⟨_, rfl⟩
  | some s =>
    rcases exists_order_of_accepts (accepts s (List.mem_of_getLast? last)) with ⟨order, found⟩
    exact ⟨order, Order.word_of_ofWord? found⟩

/-- An accepted page size is read exactly when its last token is bare. -/
theorem limitOf_eq_ok_iff
    {values : Value} {sizes : List String} (read : valueTexts values = .ok sizes)
    (accepts : ∀ s ∈ sizes, acceptsToken (validatorOf .limit) s = true)
    (config : Config) (limit : Int) :
    limitOf config values = .ok limit ↔
      (∀ s ∈ sizes.getLast?, Token.IsBare s) ∧ IsLimit config sizes.getLast? limit := by
  rw [limitOf, read, ok_bind]
  cases last : sizes.getLast? with
  | none =>
    constructor
    · intro done
      cases done
      exact ⟨by simp, rfl⟩
    · rintro ⟨-, rfl⟩
      rfl
  | some s =>
    rcases exists_integer_of_accepts (accepts s (List.mem_of_getLast? last)) with
      ⟨n, positive, spelled⟩
    dsimp only
    rw [readLimit]
    constructor
    · intro done
      split at done
      · next m whole =>
        -- The whole text is a number, so there is no colon behind a word in front.
        have bare : Token.IsBare s := by
          by_contra notBare
          exact Numeral.noColon_of_integer whole (Token.colon_of_not_isBare notBare)
        rw [bare, whole] at spelled
        cases spelled
        rw [if_neg (Int.not_lt.mpr positive)] at done
        cases done
        refine ⟨by simpa using bare, n, ?_, rfl⟩
        rw [bare]
        exact Numeral.integer?_of_integer whole
      · cases done
    · rintro ⟨bare, m, found, rfl⟩
      have isBare : (Token.parse s).value = s := bare s rfl
      have same := Numeral.integer?_of_integer spelled
      rw [found] at same
      cases same
      rw [isBare] at spelled
      rw [spelled]
      exact if_neg (Int.not_lt.mpr positive)

/-- An accepted direction is read exactly when its last token is bare. -/
theorem direction_eq_ok_iff
    {orders : List String} (accepts : ∀ s ∈ orders, acceptsToken (validatorOf .order) s = true)
    (fallback order : Order) :
    Order.ofValue ((orders.getLast?.map Value.text).getD (.text fallback.word)) = .ok order ↔
      (∀ s ∈ orders.getLast?, Token.IsBare s) ∧ IsDirection fallback orders.getLast? order := by
  have ofWord (o : Order) : Order.ofValue (.text o.word) = .ok o := by
    cases o <;> rfl
  cases last : orders.getLast? with
  | none =>
    rw [Option.map_none, Option.getD_none, ofWord]
    constructor
    · intro done
      cases done
      exact ⟨by simp, rfl⟩
    · rintro ⟨-, rfl⟩
      rfl
  | some s =>
    rcases exists_order_of_accepts (accepts s (List.mem_of_getLast? last)) with ⟨named, found⟩
    have spelled := Order.word_of_ofWord? found
    rw [Option.map_some, Option.getD_some]
    constructor
    · intro done
      have bare : Token.IsBare s := by
        by_contra notBare
        exact Order.noColon_of_ofValue done (Token.colon_of_not_isBare notBare)
      have isBare : (Token.parse s).value = s := bare
      rw [isBare] at spelled
      rw [← spelled, ofWord] at done
      cases done
      exact ⟨by simpa using bare, by rw [IsDirection, isBare, spelled]⟩
    · rintro ⟨bare, isOrder⟩
      have isBare : (Token.parse s).value = s := bare s rfl
      rw [IsDirection, isBare] at isOrder
      rw [← isOrder, ofWord]

/--
A request that the engine's own validators accept has a page exactly when the
last token for the page size and the last one for the direction, as far as there
are any, have no operator's word in front.  Then the size is the number that the
value of the last token stands for, cut to the greatest one, and the direction
is the value of the last token; both have their defaults without a token.
-/
theorem pageOf_of_validate
    {limits : Config} {accepted : List String} {query : Query}
    (valid : (validate limits accepted [] query).result = .ok ())
    (config : Config) (fallback : Order) :
    ∃ sizes orders, valueTexts (query.get Parameter.limit.word) = .ok sizes ∧
      valueTexts (query.get Parameter.order.word) = .ok orders ∧
      ((∃ page, pageOf config (.text fallback.word) query = .ok page) ↔
        (∀ s ∈ sizes.getLast?, Token.IsBare s) ∧ ∀ s ∈ orders.getLast?, Token.IsBare s) ∧
      ∀ page, pageOf config (.text fallback.word) query = .ok page →
        page.clause = limitClause page.limit ∧ IsLimit config sizes.getLast? page.limit ∧
          IsDirection fallback orders.getLast? page.order := by
  rcases exists_texts_of_validate valid .limit with ⟨sizes, sizesRead, sizesAccepted⟩
  rcases exists_texts_of_validate valid .order with ⟨orders, ordersRead, ordersAccepted⟩
  have limitRead := limitOf_eq_ok_iff sizesRead sizesAccepted config
  have orderRead := direction_eq_ok_iff ordersAccepted fallback
  refine ⟨sizes, orders, sizesRead, ordersRead, ⟨?_, ?_⟩, ?_⟩
  · rintro ⟨page, done⟩
    rcases bind_eq_ok.mp done with ⟨limit, limited, done⟩
    rw [ordersRead, ok_bind] at done
    rcases bind_eq_ok.mp done with ⟨order, ordered, -⟩
    exact ⟨((limitRead limit).mp limited).1, ((orderRead order).mp ordered).1⟩
  · rintro ⟨bareSizes, bareOrders⟩
    rcases exists_isLimit config sizesAccepted with ⟨limit, isLimit⟩
    rcases exists_isDirection fallback ordersAccepted with ⟨order, isDirection⟩
    rw [pageOf, (limitRead limit).mpr ⟨bareSizes, isLimit⟩, ok_bind, ordersRead, ok_bind,
      (orderRead order).mpr ⟨bareOrders, isDirection⟩]
    exact ⟨_, rfl⟩
  · intro page done
    rcases bind_eq_ok.mp done with ⟨limit, limited, done⟩
    rw [ordersRead, ok_bind] at done
    rcases bind_eq_ok.mp done with ⟨order, ordered, done⟩
    cases done
    exact ⟨rfl, ((limitRead limit).mp limited).2, ((orderRead order).mp ordered).2⟩

/-- The last page size counts, and it is cut to the greatest one. -/
theorem pageOf_of_validate_capped :
    let query : Query := [("limit", .list [.text "eq:7", .int 250]), ("order", .text "asc")]
    (validate .standard ["limit", "order"] [] query).result = .ok () ∧
      ∃ page, pageOf .standard (.text Order.desc.word) query = .ok page ∧ page.limit = 100 ∧
        page.order = .asc := by
  intro query
  have valid : (validate .standard ["limit", "order"] [] query).result = .ok () := by
    rw [result_validate_eq_ok_iff_problems]
    decide +kernel
  rcases pageOf_of_validate valid .standard .desc with
    ⟨sizes, orders, sizesRead, ordersRead, paged, isPage⟩
  have sizesWritten : valueTexts (query.get Parameter.limit.word) = .ok ["eq:7", "250"] := by
    decide +kernel
  cases sizesWritten.symm.trans sizesRead
  cases ordersRead
  rcases paged.mpr (by decide +kernel) with ⟨page, done⟩
  rcases isPage page done with ⟨-, ⟨n, spelled, limit⟩, direction⟩
  have isNumber : Numeral.integer? (Token.parse "250").value = some 250 := by
    decide +kernel
  have isWord : (Token.parse "asc").value = Order.asc.word := by
    decide +kernel
  refine ⟨valid, page, done, ?_, ?_⟩
  · rw [limit, Option.some.inj (spelled.symm.trans isNumber)]
    rfl
  · have word : page.order.word = Order.asc.word := direction.trans isWord
    cases order : page.order with
    | asc => rfl
    | desc =>
      rw [order] at word
      exact absurd word (by decide)

/-- A page size with the word of equality in front passes, but it is not read. -/
theorem pageOf_eq_refused :
    let query : Query := [("limit", .text "eq:10")]
    (validate .standard ["limit"] [] query).result = .ok () ∧
      pageOf .standard (.text Order.desc.word) query =
        .error (.invalidParameter Parameter.limit.word) := by
  refine ⟨?_, ?_⟩
  · rw [result_validate_eq_ok_iff_problems]
    decide +kernel
  · cbv

end Request

end LedgerQuery
