import LedgerQuery.Text.Digit
import LedgerQuery.Text.Word

/-!
# Lexemes of SQL text

SQL text is cut into the pieces that matter for placeholders: quoted texts and comments, in which a
question mark means nothing, the operators that contain a question mark, the placeholders, and
single characters for everything else.  A quote or block comment that is never closed is a single
character.

The lexemes of a text put together are the text, whatever it holds.
-/

namespace LedgerQuery.Sql

/-- A piece of SQL text. -/
inductive Lexeme where
  /-- A closed text between single or double quotes. -/
  | literal (text : List Char)
  /-- A comment to the end of the line, or a closed block comment. -/
  | comment (text : List Char)
  /-- An operator of a question mark and a second character. -/
  | questionPair (second : Char)
  /-- A question mark with a name. -/
  | named (name : List Char)
  /-- A question mark alone. -/
  | anonymous
  /-- A dollar sign with a number. -/
  | numbered (digits : List Char)
  /-- Any other character. -/
  | plain (c : Char)
  deriving DecidableEq, Repr

/-- Put characters in front of the first part. -/
def before (head : List Char) (parts : List Char × List Char) : List Char × List Char :=
  (head ++ parts.1, parts.2)

/-- The rest of a quoted text up to and with its closing quote, and what follows.  A backslash takes
the next character with it. -/
def closeQuote (quote : Char) : List Char → Option (List Char × List Char)
  | [] => none
  | c :: cs =>
    if c = quote then some ([c], cs)
    else if c = '\\' then
      match cs with
      | [] => none
      | d :: ds => (closeQuote quote ds).map (before [c, d])
    else (closeQuote quote cs).map (before [c])

/-- The rest of a block comment up to and with its end mark, and what follows. -/
def closeComment : List Char → Option (List Char × List Char)
  | [] => none
  | c :: cs =>
    match c, cs with
    | '*', '/' :: ds => some (['*', '/'], ds)
    | _, _ => (closeComment cs).map (before [c])

/-- Whether a comment to the end of the line goes on. -/
def inLine (c : Char) : Bool :=
  c != '\n' && c != '\r'

namespace Lexeme

/-- The text of a lexeme. -/
def source : Lexeme → List Char
  | literal text => text
  | comment text => text
  | questionPair second => ['?', second]
  | named name => '?' :: name
  | anonymous => ['?']
  | numbered digits => '$' :: digits
  | plain c => [c]

/-- The lexeme that begins with a question mark. -/
def ofQuestion : List Char → Lexeme × List Char
  | [] => (anonymous, [])
  | c :: cs =>
    if c = '?' ∨ c = '|' ∨ c = '&' then (questionPair c, cs)
    else if Text.isNameStart c then
      (named (c :: cs.takeWhile Text.isWord), cs.dropWhile Text.isWord)
    else (anonymous, c :: cs)

/-- The lexeme that begins with a dollar sign. -/
def ofDollar (cs : List Char) : Lexeme × List Char :=
  let digits := cs.takeWhile Text.isDigit
  if digits.isEmpty then (plain '$', cs) else (numbered digits, cs.dropWhile Text.isDigit)

/-- The lexeme that begins with a quote. -/
def ofQuote (quote : Char) (cs : List Char) : Lexeme × List Char :=
  match closeQuote quote cs with
  | some (text, rest) => (literal (quote :: text), rest)
  | none => (plain quote, cs)

/-- The lexeme that begins with a hyphen. -/
def ofHyphen : List Char → Lexeme × List Char
  | '-' :: cs => (comment ('-' :: '-' :: cs.takeWhile inLine), cs.dropWhile inLine)
  | cs => (plain '-', cs)

/-- The lexeme that begins with a slash. -/
def ofSlash : List Char → Lexeme × List Char
  | '*' :: cs =>
    match closeComment cs with
    | some (text, rest) => (comment ('/' :: '*' :: text), rest)
    | none => (plain '/', '*' :: cs)
  | cs => (plain '/', cs)

/-- The first lexeme of a text, given its first character and the rest, and what follows it. -/
def next (c : Char) (cs : List Char) : Lexeme × List Char :=
  if c = '"' ∨ c = '\'' then ofQuote c cs
  else if c = '-' then ofHyphen cs
  else if c = '/' then ofSlash cs
  else if c = '?' then ofQuestion cs
  else if c = '$' then ofDollar cs
  else (plain c, cs)

end Lexeme

/-! ### A lexeme and what follows it are the text -/

@[simp]
theorem before_fst (head : List Char) (parts : List Char × List Char) :
    (before head parts).1 = head ++ parts.1 := rfl

@[simp]
theorem before_snd (head : List Char) (parts : List Char × List Char) :
    (before head parts).2 = parts.2 := rfl

theorem closeQuote_append {quote : Char} {cs : List Char} {parts : List Char × List Char}
    (closed : closeQuote quote cs = some parts) : parts.1 ++ parts.2 = cs := by
  fun_induction closeQuote quote cs generalizing parts with
  | case1 => simp at closed
  | case2 =>
    obtain rfl := Option.some.inj closed
    rfl
  | case3 => simp at closed
  | case4 =>
    rename_i ih
    obtain ⟨inner, found, rfl⟩ := Option.map_eq_some_iff.1 closed
    simpa using ih found
  | case5 =>
    rename_i ih
    obtain ⟨inner, found, rfl⟩ := Option.map_eq_some_iff.1 closed
    simpa using ih found

theorem closeComment_append {cs : List Char} {parts : List Char × List Char}
    (closed : closeComment cs = some parts) : parts.1 ++ parts.2 = cs := by
  fun_induction closeComment cs generalizing parts with
  | case1 => simp at closed
  | case2 =>
    obtain rfl := Option.some.inj closed
    rfl
  | case3 =>
    rename_i ih
    obtain ⟨inner, found, rfl⟩ := Option.map_eq_some_iff.1 closed
    simpa using ih found

namespace Lexeme

theorem next_append (c : Char) (cs : List Char) :
    (next c cs).1.source ++ (next c cs).2 = c :: cs := by
  unfold next
  split
  · unfold ofQuote
    split
    · next found => simpa [source] using closeQuote_append found
    · rfl
  split
  · next hyphen =>
    subst hyphen
    unfold ofHyphen
    split <;> simp [source]
  split
  · next slash =>
    subst slash
    unfold ofSlash
    split
    · split
      · next found => simpa [source] using closeComment_append found
      · rfl
    · rfl
  split
  · next question =>
    subst question
    unfold ofQuestion
    split
    · rfl
    · split
      · rfl
      · split <;> simp [source]
  split
  · next dollar =>
    subst dollar
    unfold ofDollar
    dsimp only
    split <;> simp [source]
  · rfl

theorem source_ne_nil_of_next (c : Char) (cs : List Char) : (next c cs).1.source ≠ [] := by
  unfold next
  split
  · unfold ofQuote
    split <;> simp [source]
  split
  · unfold ofHyphen
    split <;> simp [source]
  split
  · unfold ofSlash
    split
    · split <;> simp [source]
    · simp [source]
  split
  · unfold ofQuestion
    split
    · simp [source]
    · split
      · simp [source]
      · split <;> simp [source]
  split
  · unfold ofDollar
    dsimp only
    split <;> simp [source]
  · simp [source]

/-- What follows the first lexeme is no longer than what follows the first character. -/
theorem length_next_le (c : Char) (cs : List Char) : (next c cs).2.length ≤ cs.length := by
  have whole := congrArg List.length (next_append c cs)
  have some := List.length_pos_iff.2 (source_ne_nil_of_next c cs)
  simp only [List.length_append, List.length_cons] at whole
  omega

end Lexeme

/-- The lexemes of a text. -/
def lexemes : List Char → List Lexeme
  | [] => []
  | c :: cs => (Lexeme.next c cs).1 :: lexemes (Lexeme.next c cs).2
termination_by cs => cs.length
decreasing_by
  have := Lexeme.length_next_le c cs
  simp only [List.length_cons]
  omega

/-- The text of a list of lexemes. -/
def sources (ls : List Lexeme) : List Char :=
  ls.flatMap Lexeme.source

@[simp]
theorem sources_lexemes (cs : List Char) : sources (lexemes cs) = cs := by
  fun_induction lexemes cs with
  | case1 => rfl
  | case2 c cs ih =>
    simp only [sources, List.flatMap_cons] at ih ⊢
    rw [ih, Lexeme.next_append]

end LedgerQuery.Sql
