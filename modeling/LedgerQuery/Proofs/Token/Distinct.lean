import LedgerQuery.Proofs.Distinct
import LedgerQuery.Proofs.Given

/-!
# Distinct tokens

A token is read as it was written, whatever its value holds: colons, the words of
operators, nothing.  The tokens of a query value are compared by their operator
and the encoded form of their value, and the main statement says that exactly
those are left whose operator and encoded value occur at no earlier token.  So
nothing changes when the tokens that are left are written and read once more.
-/

namespace LedgerQuery

/-! ## What is read -/

/-- What a query value holds, one after the other. -/
inductive Holds : Value → List Value → Prop where
  | nothing : Holds .null []
  | text (s : String) : Holds (.text s) [.text s]
  | operator (o : Operator) : Holds (.operator o) [.operator o]
  | int (n : Int) : Holds (.int n) [.int n]
  | bool (b : Bool) : Holds (.bool b) [.bool b]
  | list (items : List Value) : Holds (.list items) items
  | tuple (items : List Value) : Holds (.tuple items) items
  | bytes (b : List UInt8) : Holds (.bytes b) (b.map fun byte => .int byte.toNat)
  | pair (o : Operator) (v : Value) : Holds (.pair o v) [.operator o, v]
  | cursor (v : Value) (inclusive primary : Bool) :
    Holds (.cursor v inclusive primary) [v, .bool inclusive, .bool primary]
  | map (entries : List (String × Value)) :
    Holds (.map entries) (entries.map fun entry => .text entry.1)

theorem givenValues_eq_ok_iff {raw : Value} {items : List Value} :
    givenValues raw = .ok items ↔ Holds raw items := by
  constructor
  · intro held
    cases raw <;> cases held <;> constructor
  · intro holds
    cases holds <;> rfl

/-- The key of a token: its operator with its value, which is encoded where there is an encoder. -/
inductive Token.HasKey (token : Token) : Option Encoder → Criterion → Prop where
  | plain : HasKey token none (token.operator, .text token.value)
  | encoded {encode : Encoder} {v : Value} (done : encode (.text token.value) = .ok v) :
    HasKey token (some encode) (token.operator, v)

/-- An element is read as the token of its text, with a key that can be compared. -/
structure IsReading (encoder : Option Encoder) (v : Value) (read : Token × Criterion) : Prop where
  showable : v.IsShowable
  token : read.1 = Token.parse v.plain
  key : read.1.HasKey encoder read.2
  comparable : read.2.2.isKey = true

/-! ## First occurrences of tokens -/

/-- A token with its operator and the encoded form of its value. -/
def readToken (encoder : Option Encoder) (s : String) : Except Fault (Token × Criterion) :=
  (Criterion.encoded encoder ((Token.parse s).operator, .text (Token.parse s).value)).map fun key =>
    (Token.parse s, key)

theorem distinctTokens_cons (encoder : Option Encoder) (seen : List Criterion) (s : String)
    (texts : List String) :
    distinctTokens encoder seen (s :: texts) =
      readToken encoder s >>= fun read =>
        if seen.any (·.same read.2) then distinctTokens encoder seen texts
        else (distinctTokens encoder (seen ++ [read.2]) texts).map (read.1 :: ·) := by
  rw [distinctTokens, readToken, Criterion.encoded]
  cases encodeWith encoder (.text (Token.parse s).value) with
  | error fault => rfl
  | ok encoded =>
    rw [ok_bind, ok_bind]
    cases Criterion.checked ((Token.parse s).operator, encoded) with
    | error fault => rfl
    | ok key => rfl

/-- Reading tokens one after the other leaves the first occurrences of those not seen before. -/
theorem distinctTokens_eq (encoder : Option Encoder) (seen : List Criterion)
    (texts : List String) :
    distinctTokens encoder seen texts =
      (texts.mapM (readToken encoder)).map fun read =>
        (newOccurrences Criterion.same Prod.snd seen read).map Prod.fst := by
  induction texts generalizing seen with
  | nil => rfl
  | cons s texts ih =>
    rw [distinctTokens_cons, List.mapM_cons]
    cases readToken encoder s with
    | error fault => rfl
    | ok first =>
      rw [ok_bind, ok_bind, ih, ih]
      cases texts.mapM (readToken encoder) with
      | error fault => exact ite_self _
      | ok read =>
        cases repeated : seen.any (·.same first.2) with
        | true =>
          have passed := newOccurrences_cons_of_seen Criterion.same_trans repeated read
          exact congrArg (fun left => Except.ok (left.map Prod.fst)) passed.symm
        | false =>
          have kept := newOccurrences_cons_of_new repeated read
          exact congrArg (fun left => Except.ok (left.map Prod.fst)) kept.symm

theorem parseTokens_eq (raw : Value) (encoder : Option Encoder) :
    parseTokens raw encoder =
      (valueTexts raw >>= List.mapM (readToken encoder)).map fun read =>
        (firstOccurrences Criterion.same Prod.snd read).map Prod.fst := by
  rw [parseTokens]
  cases valueTexts raw with
  | error fault => rfl
  | ok texts =>
    rw [ok_bind, ok_bind, distinctTokens_eq]
    simp only [newOccurrences_nothing_seen]

/-- A token that is written again has the same operator and the same encoded value. -/
theorem readToken_text
    {encoder : Option Encoder} {s : String} {read : Token × Criterion}
    (done : readToken encoder s = .ok read) :
    readToken encoder read.1.text = .ok read := by
  rcases map_eq_ok.mp done with ⟨key, encoded, rfl⟩
  rw [readToken, Token.parse_text, encoded]
  rfl

theorem Token.hasKey_iff {encoder : Option Encoder} {token : Token} {key : Criterion} :
    token.HasKey encoder key ↔
      key.1 = token.operator ∧ encodeWith encoder (.text token.value) = .ok key.2 := by
  constructor
  · intro hasKey
    cases hasKey with
    | plain => exact ⟨rfl, rfl⟩
    | encoded done => exact ⟨rfl, done⟩
  · rcases key with ⟨operator, v⟩
    rintro ⟨rfl, done⟩
    cases encoder with
    | none =>
      cases done
      exact .plain
    | some encode => exact .encoded done

theorem readToken_eq_ok_iff
    {encoder : Option Encoder} {s : String} {read : Token × Criterion} :
    readToken encoder s = .ok read ↔
      read.1 = Token.parse s ∧ read.1.HasKey encoder read.2 ∧ read.2.2.isKey = true := by
  rcases read with ⟨token, operator, v⟩
  rw [readToken, map_eq_ok, Token.hasKey_iff]
  simp only [Criterion.encoded, bind_eq_ok, Criterion.checked]
  constructor
  · rintro ⟨key, ⟨encoded, done, checked⟩, same⟩
    split at checked
    · next comparable =>
      cases checked
      cases same
      exact ⟨rfl, ⟨rfl, done⟩, comparable⟩
    · cases checked
  · rintro ⟨rfl, ⟨rfl, done⟩, comparable⟩
    exact ⟨_, ⟨v, done, if_pos comparable⟩, rfl⟩

theorem isReading_iff {encoder : Option Encoder} {v : Value} {read : Token × Criterion} :
    IsReading encoder v read ↔ v.IsShowable ∧ readToken encoder v.plain = .ok read := by
  rw [readToken_eq_ok_iff]
  constructor
  · rintro ⟨showable, token, key, comparable⟩
    exact ⟨showable, token, key, comparable⟩
  · rintro ⟨showable, token, key, comparable⟩
    exact ⟨showable, token, key, comparable⟩

theorem mapM_readToken_eq_ok_iff
    {raw : Value} {encoder : Option Encoder} {read : List (Token × Criterion)} :
    (valueTexts raw >>= List.mapM (readToken encoder)) = .ok read ↔
      ∃ items, Holds raw items ∧ List.Forall₂ (IsReading encoder) items read := by
  have asReading : IsReading encoder = fun v read =>
      v.IsShowable ∧ readToken encoder v.plain = .ok read := by
    funext v read
    exact propext isReading_iff
  simp only [asReading, List.forall₂_and_left, bind_eq_ok, valueTexts_eq_ok_iff,
    givenValues_eq_ok_iff, mapM_eq_ok_iff]
  constructor
  · rintro ⟨texts, ⟨items, holds, showable, rfl⟩, done⟩
    exact ⟨items, holds, showable, List.forall₂_map_left_iff.mp done⟩
  · rintro ⟨items, holds, showable, done⟩
    exact ⟨items.map Value.plain, ⟨items, holds, showable, rfl⟩,
      List.forall₂_map_left_iff.mpr done⟩

/-- Tokens that are written again are all left. -/
theorem parseTokens_texts
    {raw : Value} {encoder : Option Encoder} {tokens : List Token}
    (parsed : parseTokens raw encoder = .ok tokens) :
    parseTokens (.list (tokens.map fun token => .text token.text)) encoder = .ok tokens := by
  rw [parseTokens_eq] at parsed ⊢
  rcases map_eq_ok.mp parsed with ⟨read, done, rfl⟩
  rcases bind_eq_ok.mp done with ⟨texts, -, done⟩
  have again : ((firstOccurrences Criterion.same Prod.snd read).map fun r => r.1.text).mapM
      (readToken encoder) = .ok (firstOccurrences Criterion.same Prod.snd read) := by
    rw [mapM_eq_ok_iff, List.forall₂_map_left_iff, List.forall₂_same]
    intro r member
    rcases exists_of_mem_mapM done (mem_of_mem_firstOccurrences member) with ⟨s, -, readFrom⟩
    exact readToken_text readFrom
  have written : valueTexts (.list (((firstOccurrences Criterion.same Prod.snd read).map
      Prod.fst).map fun token => .text token.text)) =
      .ok ((firstOccurrences Criterion.same Prod.snd read).map fun r => r.1.text) := by
    rw [← Query.valueTexts_texts, List.map_map, List.map_map]
    rfl
  rw [written, ok_bind, again]
  exact congrArg (fun left => Except.ok (left.map Prod.fst)) (firstOccurrences_idem read)

/--
A token is read as it was written.  A query value is read just where it holds
values that can be written and all tokens in their texts have keys: its tokens
are then those whose operator and encoded value occur at no earlier token.  Where
these are written and read again with the same encoder, all of them are left.
-/
theorem parseTokens_distinct (raw : Value) (encoder : Option Encoder) :
    (∀ (operator : Operator) (value : String),
        Token.parse (operator.word ++ ":" ++ value) = ⟨operator, value⟩) ∧
      (∀ tokens, parseTokens raw encoder = .ok tokens ↔
        ∃ items read, Holds raw items ∧ List.Forall₂ (IsReading encoder) items read ∧
          tokens = (firstOccurrences Criterion.same Prod.snd read).map Prod.fst) ∧
      ∀ tokens, parseTokens raw encoder = .ok tokens →
        parseTokens
            (.list (tokens.map fun token => .text (token.operator.word ++ ":" ++ token.value)))
            encoder = .ok tokens := by
  refine ⟨fun operator value => Token.parse_text ⟨operator, value⟩, ?_,
    fun tokens parsed => parseTokens_texts parsed⟩
  intro tokens
  rw [parseTokens_eq, map_eq_ok]
  simp only [mapM_readToken_eq_ok_iff]
  constructor
  · rintro ⟨read, ⟨items, holds, readings⟩, rfl⟩
    exact ⟨items, read, holds, readings, rfl⟩
  · rintro ⟨items, read, holds, readings, rfl⟩
    exact ⟨read, ⟨items, holds, readings⟩, rfl⟩

/-- The word of an operator in front of another, and a repetition. -/
example :
    parseTokens (.list [.text "gt:lt:1", .int 7, .text "eq:7"]) none =
      .ok [⟨.gt, "lt:1"⟩, ⟨.eq, "7"⟩] := by
  decide +kernel

end LedgerQuery
