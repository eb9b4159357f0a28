import LedgerQuery.Proofs.Link.Basic
import LedgerQuery.Proofs.Outcome
import LedgerQuery.Proofs.Value.Parts
import LedgerQuery.Query

/-!
# Tokens of queries

Reading a token undoes writing it, and the query of some texts has these texts.
A query keeps its keys when it is read.  A direction is named by its word.
-/

namespace LedgerQuery

open Link (Tokens keys)

/-! ## Tokens -/

theorem Operator.noColon_word (operator : Operator) : ':' ∉ operator.word.toList := by
  cases operator <;> decide

/-- A token is read as it was written. -/
theorem Token.parse_text (token : Token) : parse token.text = token := by
  have characters : token.text.toList =
      token.operator.word.toList ++ ':' :: token.value.toList := by
    simp [text]
  rw [parse, characters, split_append (Operator.noColon_word token.operator)]
  simp

/-! ## Queries -/

namespace Query

theorem valueTexts_texts (texts : List String) :
    valueTexts (.list (texts.map .text)) = .ok texts := by
  have written : ∀ v ∈ texts.map Value.text, v.written = .ok v.plain :=
    List.forall_mem_map.mpr fun s _ => Value.written_text s
  show (texts.map Value.text).mapM Value.written = _
  rw [mapM_of_forall_ok written, List.map_map]
  exact congrArg _ (List.map_id texts)

theorem texts_cons_eq_ok {entry : String × Value} {query : Query} {tokens : Tokens} :
    texts (entry :: query) = .ok tokens ↔
      ∃ values others, valueTexts entry.2 = .ok values ∧ texts query = .ok others ∧
        tokens = (entry.1, values) :: others := by
  rw [texts, mapM_cons_eq_ok]
  constructor
  · rintro ⟨first, others, firstRead, othersRead, rfl⟩
    rcases bind_eq_ok.mp firstRead with ⟨values, valuesRead, firstRead⟩
    cases firstRead
    exact ⟨values, others, valuesRead, othersRead, rfl⟩
  · rintro ⟨values, others, valuesRead, othersRead, rfl⟩
    exact ⟨_, others, bind_eq_ok.mpr ⟨values, valuesRead, rfl⟩, othersRead, rfl⟩

/-- The query of some texts is read as these texts. -/
theorem texts_ofTexts (tokens : Tokens) : (ofTexts tokens).texts = .ok tokens := by
  induction tokens with
  | nil => rfl
  | cons entry tokens ih =>
    rw [ofTexts, List.map_cons, texts_cons_eq_ok]
    exact ⟨entry.2, tokens, valueTexts_texts entry.2, ih, rfl⟩

/-- Reading the values of a query keeps its keys. -/
theorem keys_of_texts
    {query : Query} {tokens : Tokens}
    (read : query.texts = .ok tokens) :
    keys tokens = query.map Prod.fst := by
  induction query generalizing tokens with
  | nil =>
    cases read
    rfl
  | cons entry query ih =>
    rcases texts_cons_eq_ok.mp read with ⟨values, others, -, othersRead, rfl⟩
    rw [keys, List.map_cons, List.map_cons]
    exact congrArg _ (ih othersRead)

theorem nodup_keys_of_texts
    {query : Query} (distinct : (query.map Prod.fst).Nodup)
    {tokens : Tokens} (read : query.texts = .ok tokens) :
    (keys tokens).Nodup := by
  rw [keys_of_texts read]
  exact distinct

/-- What holds of the texts of each key by itself holds of the texts of a query. -/
theorem forall_texts_iff {query : Query} {holds : String → List String → Prop} :
    (∃ tokens, query.texts = .ok tokens ∧ ∀ entry ∈ tokens, holds entry.1 entry.2) ↔
      ∀ entry ∈ query, ∃ values, valueTexts entry.2 = .ok values ∧ holds entry.1 values := by
  induction query with
  | nil =>
    apply iff_of_true
    · refine ⟨[], rfl, ?_⟩
      intro entry impossible
      cases impossible
    · intro entry impossible
      cases impossible
  | cons entry query ih =>
    rw [List.forall_mem_cons, ← ih]
    constructor
    · rintro ⟨tokens, read, holdsAll⟩
      rcases texts_cons_eq_ok.mp read with ⟨values, others, valuesRead, othersRead, rfl⟩
      rw [List.forall_mem_cons] at holdsAll
      exact ⟨⟨values, valuesRead, holdsAll.1⟩, others, othersRead, holdsAll.2⟩
    · rintro ⟨⟨values, valuesRead, holdsFirst⟩, others, othersRead, holdsOthers⟩
      refine ⟨_, texts_cons_eq_ok.mpr ⟨values, others, valuesRead, othersRead, rfl⟩, ?_⟩
      exact List.forall_mem_cons.mpr ⟨holdsFirst, holdsOthers⟩

/-- What a query gives for a key is nothing or the value of an entry with this key. -/
theorem get_eq_null_or_mem (query : Query) (key : String) :
    query.get key = .null ∨ (key, query.get key) ∈ query := by
  rw [get]
  cases found : query.lookup key with
  | none => exact Or.inl rfl
  | some v =>
    rcases List.lookup_eq_some_iff.mp found with ⟨before, behind, rfl, -⟩
    exact Or.inr (by simp)

end Query

/-! ## Directions -/

theorem Order.word_of_ofWord? {s : String} {order : Order} (found : ofWord? s = some order) :
    order.word = s := by
  have same := List.find?_some found
  simpa using same

/-- A value names a direction when its text is the word of the direction. -/
theorem Order.ofValue_eq_ok_iff {v : Value} {direction : Order} :
    ofValue v = .ok direction ↔ v.asText? = some direction.word := by
  rw [ofValue]
  cases isText : v.asText? with
  | none =>
    apply iff_of_false <;>
    · intro impossible
      cases impossible
  | some s =>
    rw [Option.bind_some, Option.some.injEq]
    constructor
    · intro named
      split at named
      · next found =>
        cases named
        exact (word_of_ofWord? found).symm
      · cases named
    · rintro rfl
      rw [ofWord?_word]

end LedgerQuery
