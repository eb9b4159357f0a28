import LedgerQuery.Value.Order

/-!
# Query tokens

A query value is one token or a list of them.  A token is an operator's word, a colon and a value;
without such a word in front the whole token is the value and the operator is `eq`.

The main statement about tokens is that reading undoes writing, whatever the value holds.
-/

namespace LedgerQuery

/-- An operator with the text it applies to. -/
structure Token where
  operator : Operator
  value : String
  deriving DecidableEq, Repr

namespace Token

/-- Write a token with its operator in front. -/
def text (t : Token) : String :=
  t.operator.word ++ ":" ++ t.value

/-- Split the characters of a token at its first colon. -/
def split (cs : List Char) : Option (List Char × List Char) :=
  match cs.dropWhile (· != ':') with
  | [] => none
  | _ :: rest => some (cs.takeWhile (· != ':'), rest)

/-- Read a token. -/
def parse (s : String) : Token :=
  match split s.toList with
  | none => ⟨.eq, s⟩
  | some (head, rest) =>
    match Operator.ofWord? (String.ofList head) with
    | none => ⟨.eq, s⟩
    | some operator => ⟨operator, String.ofList rest⟩

/-- The token as a value. -/
def toValue (t : Token) : Value :=
  .pair t.operator (.text t.value)

theorem split_append {head rest : List Char} (noColon : ':' ∉ head) :
    split (head ++ ':' :: rest) = some (head, rest) := by
  have pass : ∀ c ∈ head, (c != ':') = true := by
    intro c member
    simp only [bne_iff_ne, ne_eq]
    rintro rfl
    exact noColon member
  simp [split, List.dropWhile_append_of_pos pass, List.takeWhile_append_of_pos pass]

end Token

/-- What a query value holds: nothing has no values, a scalar is the only one, and a sequence has
its elements. -/
def givenValues (raw : Value) : Except Fault (List Value) :=
  match raw with
  | .null => .ok []
  | .text _ | .operator _ | .int _ | .bool _ => .ok [raw]
  | _ => raw.elements

/-- The texts of what a query value holds. -/
def valueTexts (raw : Value) : Except Fault (List String) := do
  (← givenValues raw).mapM Value.written

/-- A conversion of query values; a result of nothing means that the value is not usable. -/
abbrev Encoder := Value → Except Fault Value

/-- Apply an optional encoder. -/
def encodeWith (encoder : Option Encoder) (v : Value) : Except Fault Value :=
  match encoder with
  | none => .ok v
  | some encode => encode v

/-- An operator with a value, as a key of the check for duplicates. -/
abbrev Criterion := Operator × Value

namespace Criterion

/-- Whether two criteria ask for the same thing. -/
def same (a b : Criterion) : Bool :=
  a.1 == b.1 && a.2.equal b.2

/-- Refuse a criterion whose value cannot serve as a key. -/
def checked (c : Criterion) : Except Fault Criterion :=
  if c.2.isKey then .ok c else .error .mistyped

end Criterion

/-- Keep the tokens whose criterion has not occurred before; `seen` holds the criteria so far. -/
def distinctTokens (encoder : Option Encoder) (seen : List Criterion) :
    List String → Except Fault (List Token)
  | [] => .ok []
  | s :: rest => do
    let token := Token.parse s
    let encoded ← encodeWith encoder (.text token.value)
    let criterion ← Criterion.checked (token.operator, encoded)
    if seen.any (·.same criterion) then distinctTokens encoder seen rest
    else
      let tokens ← distinctTokens encoder (seen ++ [criterion]) rest
      return token :: tokens

/-- Read the tokens of a query value and drop those that repeat an operator and an encoded value. -/
def parseTokens (raw : Value) (encoder : Option Encoder) : Except Fault (List Token) := do
  distinctTokens encoder [] (← valueTexts raw)

end LedgerQuery
