/-!
# Relational operators

A query value may name one of six relations between a column and the value.  Two of them bound the
column from below, two from above, and three hold of the value itself.
-/

namespace LedgerQuery

/-- The relation a query value asks for. -/
inductive Operator where
  | eq
  | ne
  | lt
  | lte
  | gt
  | gte
  deriving DecidableEq, Repr

namespace Operator

/-- The operators in their canonical order. -/
def all : List Operator :=
  [eq, ne, lt, lte, gt, gte]

/-- The word that stands in front of a query value. -/
def word : Operator → String
  | eq => "eq"
  | ne => "ne"
  | lt => "lt"
  | lte => "lte"
  | gt => "gt"
  | gte => "gte"

/-- The name of the operator, in capitals. -/
def name : Operator → String
  | eq => "EQ"
  | ne => "NE"
  | lt => "LT"
  | lte => "LTE"
  | gt => "GT"
  | gte => "GTE"

/-- The operator of a word. -/
def ofWord? (s : String) : Option Operator :=
  all.find? fun o => o.word == s

/-- The operator as it is written between a column and a value, with a blank on both sides. -/
def sql : Operator → String
  | eq => " = "
  | ne => " != "
  | lt => " < "
  | lte => " <= "
  | gt => " > "
  | gte => " >= "

/-- Whether the operator bounds from below. -/
def isLower : Operator → Bool
  | gt | gte => true
  | _ => false

/-- Whether the operator bounds from above. -/
def isUpper : Operator → Bool
  | lt | lte => true
  | _ => false

/-- Whether the relation holds between equal values. -/
def inclusive : Operator → Bool
  | eq | lte | gte => true
  | _ => false

/-- The relation between integers. -/
def Holds : Operator → Int → Int → Prop
  | eq, x, y => x = y
  | ne, x, y => x ≠ y
  | lt, x, y => x < y
  | lte, x, y => x ≤ y
  | gt, x, y => y < x
  | gte, x, y => y ≤ x

instance (o : Operator) (x y : Int) : Decidable (o.Holds x y) := by
  cases o <;> simp only [Holds] <;> infer_instance

theorem mem_all (o : Operator) : o ∈ all := by
  cases o <;> decide

theorem word_injective {o p : Operator} (same : o.word = p.word) : o = p := by
  cases o <;> cases p <;> first | rfl | exact absurd same (by decide)

@[simp]
theorem ofWord?_word (o : Operator) : ofWord? o.word = some o := by
  cases o <;> decide

theorem word_of_ofWord? {s : String} {o : Operator} (found : ofWord? s = some o) : o.word = s := by
  have := List.find?_some found
  simpa using this

end Operator

/-- The direction in which rows are listed. -/
inductive Order where
  | asc
  | desc
  deriving DecidableEq, Repr

namespace Order

/-- Both directions. -/
def all : List Order :=
  [asc, desc]

/-- The word of a direction. -/
def word : Order → String
  | asc => "asc"
  | desc => "desc"

/-- The name of the direction, in capitals. -/
def name : Order → String
  | asc => "ASC"
  | desc => "DESC"

/-- The direction of a word. -/
def ofWord? (s : String) : Option Order :=
  all.find? fun o => o.word == s

@[simp]
theorem ofWord?_word (o : Order) : ofWord? o.word = some o := by
  cases o <;> decide

end Order

end LedgerQuery
