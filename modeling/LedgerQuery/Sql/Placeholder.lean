import LedgerQuery.Numeral.Decimal
import LedgerQuery.Sql.Lexeme
import LedgerQuery.Text.Quoted

/-!
# Placeholders

A placeholder is a question mark, a question mark with a name, or a dollar sign with a number.  They
are found on the lexemes of a text, counted, and rendered in the numbered style: an anonymous one
takes the next number, a named one the number of the first placeholder of its name.
-/

namespace LedgerQuery.Sql

/-- The style of a placeholder. -/
inductive Style where
  | anonymous
  | named
  | numbered
  deriving DecidableEq, Repr

namespace Style

/-- The styles in their canonical order. -/
def all : List Style :=
  [anonymous, named, numbered]

/-- The word of a style. -/
def word : Style → String
  | anonymous => "qmark"
  | named => "named_qmark"
  | numbered => "numeric"

/-- The name of a style, in capitals. -/
def name : Style → String
  | anonymous => "QMARK"
  | named => "NAMED_QMARK"
  | numbered => "NUMERIC"

end Style

/-- A placeholder where it stands in a text. -/
structure Placeholder where
  /-- The name behind the question mark or the digits behind the dollar sign. -/
  name : Option String
  style : Style
  /-- The number of characters in front of it. -/
  position : Nat
  /-- The number of placeholders in front of it. -/
  ordinal : Nat
  text : String
  deriving DecidableEq, Repr

namespace Lexeme

/-- The style of a lexeme that is a placeholder. -/
def style? : Lexeme → Option Style
  | anonymous => some .anonymous
  | named _ => some .named
  | numbered _ => some .numbered
  | _ => none

/-- The name or the digits of a placeholder. -/
def label? : Lexeme → Option (List Char)
  | named name => some name
  | numbered digits => some digits
  | _ => none

/-- Whether a lexeme is a placeholder with a question mark. -/
def isQuestion : Lexeme → Bool
  | anonymous | named _ => true
  | _ => false

end Lexeme

/-- The placeholders among lexemes, of which the first stands at `position` behind `ordinal`
placeholders. -/
def placeholdersFrom (position ordinal : Nat) : List Lexeme → List Placeholder
  | [] => []
  | l :: ls =>
    let following := position + l.source.length
    match l.style? with
    | none => placeholdersFrom following ordinal ls
    | some style =>
      ⟨l.label?.map String.ofList, style, position, ordinal, String.ofList l.source⟩ ::
        placeholdersFrom following (ordinal + 1) ls

/-- The placeholders of a text, in order. -/
def placeholders (sql : String) : List Placeholder :=
  placeholdersFrom 0 0 (lexemes sql.toList)

/-- The number of question marks that are placeholders. -/
def countQuestions (sql : String) : Nat :=
  (lexemes sql.toList).countP Lexeme.isQuestion

/-- The numbers given so far. -/
structure Numbering where
  /-- The last number given. -/
  last : Nat
  /-- The numbers of the names that have occurred. -/
  named : List (List Char × Nat)
  deriving DecidableEq, Repr

namespace Numbering

/-- No number has been given. -/
def start : Numbering :=
  ⟨0, []⟩

/-- The number of a lexeme that is a placeholder with a question mark. -/
def assign? (numbering : Numbering) : Lexeme → Option (Nat × Numbering)
  | .anonymous => some (numbering.last + 1, { numbering with last := numbering.last + 1 })
  | .named name =>
    match numbering.named.lookup name with
    | some number => some (number, numbering)
    | none =>
      some (numbering.last + 1, ⟨numbering.last + 1, (name, numbering.last + 1) :: numbering.named⟩)
  | _ => none

end Numbering

/-- The numbers of the question-mark placeholders among lexemes, in order. -/
def numbers (numbering : Numbering) : List Lexeme → List Nat
  | [] => []
  | l :: ls =>
    match numbering.assign? l with
    | some (number, next) => number :: numbers next ls
    | none => numbers numbering ls

/-- Lexemes with the question-mark placeholders replaced by numbered ones. -/
def renumber (numbering : Numbering) : List Lexeme → List Lexeme
  | [] => []
  | l :: ls =>
    match numbering.assign? l with
    | some (number, next) => .numbered (Numeral.decimal number) :: renumber next ls
    | none => l :: renumber numbering ls

/-- The text with its question-mark placeholders replaced by numbered ones. -/
def toNumbered (sql : String) : String :=
  String.ofList (sources (renumber .start (lexemes sql.toList)))

namespace Placeholder

/-- What makes two placeholders the same: name, style and place. -/
def identity (p : Placeholder) : Option String × Style × Nat :=
  (p.name, p.style, p.position)

/-- A placeholder as it is shown inside a message. -/
def shown (p : Placeholder) : String :=
  "PlaceholderInfo(name=" ++ (p.name.map Text.quoted).getD "None" ++ ", ordinal=" ++
    Numeral.write p.ordinal ++ ", placeholder_text=" ++ Text.quoted p.text ++ ", position=" ++
    Numeral.write p.position ++ ", style=<PlaceholderStyle." ++ p.style.name ++ ": '" ++
    p.style.word ++ "'>)"

/-- The number of distinct placeholders in two lists together. -/
def distinctCount (ps qs : List Placeholder) : Nat :=
  ((ps ++ qs).map identity).eraseDups.length

end Placeholder

end LedgerQuery.Sql
