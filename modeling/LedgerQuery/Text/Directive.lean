import LedgerQuery.Numeral.Decimal
import LedgerQuery.Text.Word

/-!
# Directives of a template

A template is a text with percent signs, each of which begins a directive.  A directive may name the
value it takes, in parentheses that are balanced; marks, a least width, a precision and a letter for
the size of a number follow, and a letter says what is made of the value.  Width and precision are
written out or taken from the arguments.  Two percent signs stand for one.

Reading never fails: a directive that is cut short is kept as it is, since a fault among the
arguments may come before it.
-/

namespace LedgerQuery.Text

/-- Where a directive finds its value. -/
inductive Source where
  /-- The next argument. -/
  | next
  /-- The value of a name. -/
  | named (name : String)
  /-- A name without its closing parenthesis. -/
  | unclosed
  deriving DecidableEq, Repr

/-- A number inside a directive. -/
inductive Count where
  | written (n : Nat)
  /-- The next argument is the number. -/
  | taken
  deriving DecidableEq, Repr

/-- What a percent sign asks for. -/
structure Directive where
  source : Source := .next
  /-- The marks in front of the width. -/
  marks : List Char := []
  width : Option Count := none
  precision : Option Count := none
  /-- What is made of the value; none where the text ends before it. -/
  letter : Option Char := none
  deriving DecidableEq, Repr

/-- A part of a template. -/
inductive Piece where
  | plain (c : Char)
  | directive (d : Directive)
  deriving DecidableEq, Repr

/-- Whether a character is a mark of a directive. -/
def isMark (c : Char) : Bool :=
  c == '-' || c == '+' || c == ' ' || c == '#' || c == '0'

/-- The characters up to the closing parenthesis, and what follows it; `depth` more are open. -/
def closeParenthesis (depth : Nat) : List Char → Option (List Char × List Char)
  | [] => none
  | c :: cs =>
    if c = ')' ∧ depth = 0 then some ([], cs)
    else
      let depth := if c = '(' then depth + 1 else if c = ')' then depth - 1 else depth
      (closeParenthesis depth cs).map fun parts => (c :: parts.1, parts.2)

/-- The name in front of a directive, and what follows it. -/
def readSource : List Char → Source × List Char
  | '(' :: cs =>
    match closeParenthesis 0 cs with
    | some (name, rest) => (.named (String.ofList name), rest)
    | none => (.unclosed, [])
  | cs => (.next, cs)

/-- A number, written in ASCII digits or as a star, and what follows it. -/
def readCount : List Char → Option Count × List Char
  | '*' :: cs => (some .taken, cs)
  | cs =>
    let digits := cs.takeWhile Char.isDigit
    (if digits.isEmpty then none else some (.written (Numeral.value digits)),
      cs.dropWhile Char.isDigit)

/-- The number behind a point, and what follows it; the point alone stands for zero. -/
def readPrecision : List Char → Option Count × List Char
  | '.' :: cs => (some ((readCount cs).1.getD (.written 0)), (readCount cs).2)
  | cs => (none, cs)

/-- The characters behind a letter for the size of a number, which has no effect. -/
def withoutSize : List Char → List Char
  | [] => []
  | c :: cs => if c = 'h' ∨ c = 'l' ∨ c = 'L' then cs else c :: cs

/-- The directive behind a percent sign, and what follows it. -/
def readDirective (cs : List Char) : Directive × List Char :=
  let (source, cs) := readSource cs
  let marks := cs.takeWhile isMark
  let (width, cs) := readCount (cs.dropWhile isMark)
  let (precision, cs) := readPrecision cs
  let cs := withoutSize cs
  (⟨source, marks, width, precision, cs.head?⟩, cs.tail)

/-! ### A directive takes nothing but its own characters -/

theorem length_closeParenthesis_le {depth : Nat} {cs : List Char}
    {parts : List Char × List Char} (closed : closeParenthesis depth cs = some parts) :
    parts.2.length ≤ cs.length := by
  induction cs generalizing depth parts with
  | nil => simp [closeParenthesis] at closed
  | cons c cs ih =>
    unfold closeParenthesis at closed
    split at closed
    · obtain rfl := Option.some.inj closed
      simp
    · obtain ⟨inner, found, rfl⟩ := Option.map_eq_some_iff.1 closed
      have shorter : inner.2.length ≤ cs.length := ih found
      exact Nat.le_succ_of_le shorter

theorem length_dropWhile_le (p : Char → Bool) (cs : List Char) :
    (cs.dropWhile p).length ≤ cs.length :=
  (List.dropWhile_suffix p).length_le

theorem length_readSource_le (cs : List Char) : (readSource cs).2.length ≤ cs.length := by
  unfold readSource
  split
  · split
    · next found => exact Nat.le_succ_of_le (length_closeParenthesis_le found)
    · simp
  · exact Nat.le_refl _

theorem length_readCount_le (cs : List Char) : (readCount cs).2.length ≤ cs.length := by
  unfold readCount
  split
  · simp
  · exact length_dropWhile_le _ _

theorem length_readPrecision_le (cs : List Char) : (readPrecision cs).2.length ≤ cs.length := by
  unfold readPrecision
  split
  · exact Nat.le_succ_of_le (length_readCount_le _)
  · exact Nat.le_refl _

theorem length_withoutSize_le (cs : List Char) : (withoutSize cs).length ≤ cs.length := by
  unfold withoutSize
  split
  · exact Nat.le_refl _
  · split <;> simp

theorem length_readDirective_le (cs : List Char) : (readDirective cs).2.length ≤ cs.length := by
  have source := length_readSource_le cs
  have marks := length_dropWhile_le isMark (readSource cs).2
  have width := length_readCount_le ((readSource cs).2.dropWhile isMark)
  have precision := length_readPrecision_le (readCount ((readSource cs).2.dropWhile isMark)).2
  have size := length_withoutSize_le
    (readPrecision (readCount ((readSource cs).2.dropWhile isMark)).2).2
  simp only [readDirective, List.length_tail]
  omega

/-- The parts of a template. -/
def pieces : List Char → List Piece
  | [] => []
  | '%' :: '%' :: cs => .plain '%' :: pieces cs
  | c :: cs =>
    if c = '%' then .directive (readDirective cs).1 :: pieces (readDirective cs).2
    else .plain c :: pieces cs
termination_by cs => cs.length
decreasing_by
  · simp only [List.length_cons]
    omega
  · have := length_readDirective_le cs
    simp only [List.length_cons]
    omega
  · simp

/-! ### Templates that name a value -/

/-- Whether a character is a letter that directives end in, in either case; the dotless i, the
dotted one and the long s count as forms of theirs. -/
def isLetter (c : Char) : Bool :=
  "diouxefgcrsa%ıİſ".toList.contains c.toLower

/-- The characters behind a number, written in the digits of any script or as a star. -/
def withoutCount : List Char → List Char
  | '*' :: cs => cs
  | cs => cs.dropWhile isDigit

/-- Whether a directive with a name of word characters follows a percent sign. -/
def beginsNamed : List Char → Bool
  | '(' :: cs =>
    match cs.dropWhile isWord with
    | ')' :: rest =>
      let rest := withoutCount (rest.dropWhile isMark)
      let rest := match rest with
        | '.' :: places => if (withoutCount places).length < places.length then withoutCount places
          else rest
        | _ => rest
      !(cs.takeWhile isWord).isEmpty && rest.head?.any isLetter
    | _ => false
  | _ => false

/-- Whether a template takes a value by name somewhere. -/
def takesName : List Char → Bool
  | [] => false
  | c :: cs => (c == '%' && beginsNamed cs) || takesName cs

end LedgerQuery.Text
