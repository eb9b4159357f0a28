import LedgerQuery.Clause.Compile
import LedgerQuery.Proofs.Query
import LedgerQuery.Proofs.Search

/-!
# Given values

A query holds nothing, a text or number, or a list of these under a key.  Such a
value has texts unless a number has too many digits, and the criteria of a clause
are read from these texts.
-/

namespace LedgerQuery

namespace Value

/-- A text or a whole number. -/
def isScalar : Value → Bool
  | text _ | operator _ | int _ | bool _ => true
  | _ => false

/-- Nothing, a text or whole number, or a list of these. -/
def isGiven : Value → Bool
  | null => true
  | list items => items.all isScalar
  | v => v.isScalar

/-- Nothing, a text or whole number, or any list: what has texts, as far as it can be written. -/
def hasTexts : Value → Bool
  | null | list _ => true
  | v => v.isScalar

/-- The texts of such a value: none, its own, or those of the elements of a list. -/
def texts : Value → List String
  | null => []
  | list items => items.map plain
  | v => [v.plain]

theorem hasTexts_of_isGiven {v : Value} (given : v.isGiven = true) : v.hasTexts = true := by
  cases v <;> first | rfl | exact given

end Value

theorem isScalar_of_mem_givenValues
    {raw : Value} (given : raw.isGiven = true)
    {items : List Value} (held : givenValues raw = .ok items) :
    ∀ v ∈ items, v.isScalar = true := by
  cases raw with
  | null =>
    cases held
    exact List.forall_mem_nil _
  | text | operator | int | bool =>
    cases held
    exact List.forall_mem_singleton.mpr rfl
  | list =>
    cases held
    exact List.all_eq_true.mp given
  | float | bytes | tuple | entity | pair | cursor | map => cases given

/-! ## Texts -/

theorem mapM_written_eq_ok_iff {items : List Value} {texts : List String} :
    items.mapM Value.written = .ok texts ↔
      (∀ v ∈ items, v.IsShowable) ∧ texts = items.map Value.plain := by
  constructor
  · intro made
    have each := mapM_eq_ok_iff.mp made
    simp only [Value.written_eq_ok_iff] at each
    rw [List.forall₂_and_left, List.forall₂_map_left_iff.symm, List.forall₂_eq_eq_eq] at each
    exact ⟨each.1, each.2.symm⟩
  · rintro ⟨showable, rfl⟩
    exact mapM_of_forall_ok fun v member => Value.written_of_isShowable (showable v member)

theorem mapM_written_of_not_showable
    {items : List Value} (overlong : ¬∀ v ∈ items, v.IsShowable) :
    items.mapM Value.written = .error (.unreadable .writeLimit) := by
  simp only [not_forall] at overlong
  rcases overlong with ⟨v, member, unshowable⟩
  exact mapM_eq_error_of_mem (fun _ _ _ failed => (Value.ifWritable_eq_error_iff.mp failed).2)
    member (Value.written_of_not_isShowable unshowable)

/-- A query value has the texts of what it holds, as far as that can be written. -/
theorem valueTexts_eq_ok_iff {raw : Value} {texts : List String} :
    valueTexts raw = .ok texts ↔
      ∃ items, givenValues raw = .ok items ∧ (∀ v ∈ items, v.IsShowable) ∧
        texts = items.map Value.plain := by
  simp only [valueTexts, bind_eq_ok, mapM_written_eq_ok_iff]

/-- A value with texts can be written when everything that it holds can. -/
theorem exists_givenValues {raw : Value} (offered : raw.hasTexts = true) :
    ∃ items, givenValues raw = .ok items ∧ raw.texts = items.map Value.plain ∧
      (raw.IsShowable ↔ ∀ v ∈ items, v.IsShowable) := by
  cases raw with
  | null =>
    have nothing := List.forall_mem_nil fun v : Value => v.IsShowable
    exact ⟨[], rfl, rfl, iff_of_true Value.isShowable_null nothing⟩
  | text | operator | int | bool => exact ⟨[_], rfl, rfl, List.forall_mem_singleton.symm⟩
  | list items => exact ⟨items, rfl, rfl, Value.isShowable_iff_parts rfl⟩
  | float | bytes | tuple | entity | pair | cursor | map => cases offered

theorem valueTexts_of_hasTexts {raw : Value} (offered : raw.hasTexts = true) :
    valueTexts raw = raw.ifWritable raw.texts := by
  rcases exists_givenValues offered with ⟨items, held, texts, showable⟩
  rw [valueTexts, held, ok_bind, texts]
  by_cases short : raw.IsShowable
  · rw [Value.ifWritable_of_isShowable short, mapM_written_eq_ok_iff]
    exact ⟨showable.mp short, rfl⟩
  · rw [Value.ifWritable_of_not_isShowable short]
    exact mapM_written_of_not_showable (mt showable.mpr short)

/-! ## Criteria -/

theorem Criterion.read_of_isShowable {v : Value} (showable : v.IsShowable) :
    read v = .ok (ofElement v) := by
  rw [read.eq_def]
  split
  · rfl
  · exact Value.ifWritable_of_isShowable showable _

theorem Criterion.ofElement_of_isScalar {v : Value} (scalar : v.isScalar = true) :
    ofElement v = ((Token.parse v.plain).operator, .text (Token.parse v.plain).value) := by
  cases v <;> first | rfl | cases scalar

/-- What has texts has criteria, one for each text. -/
theorem exists_criteria
    {raw : Value} {tokens : List String} (read : valueTexts raw = .ok tokens) :
    ∃ items, givenValues raw = .ok items ∧ tokens = items.map Value.plain ∧
      criteria raw = .ok (items.map Criterion.ofElement) := by
  rcases valueTexts_eq_ok_iff.mp read with ⟨items, held, showable, rfl⟩
  refine ⟨items, held, rfl, ?_⟩
  rw [criteria, held, ok_bind]
  exact mapM_of_forall_ok fun v member => Criterion.read_of_isShowable (showable v member)

theorem Criterion.read_of_isScalar {v : Value} (scalar : v.isScalar = true) :
    read v =
      v.written.map fun s => ((Token.parse s).operator, .text (Token.parse s).value) := by
  by_cases showable : v.IsShowable
  · rw [read_of_isShowable showable, Value.written_of_isShowable showable,
      ofElement_of_isScalar scalar]
    rfl
  · cases v with
    | text | operator | bool => exact absurd (Value.isShowable_of_parts_eq_nil rfl rfl) showable
    | int n =>
      rw [Value.written_of_not_isShowable showable]
      exact Value.ifWritable_of_not_isShowable showable _
    | null | float | bytes | list | tuple | entity | pair | cursor | map => cases scalar

/-- The texts of a given value are its criteria, and where it has none it has no criteria either. -/
theorem criteria_eq_of_isGiven {raw : Value} (given : raw.isGiven = true) :
    criteria raw =
      (valueTexts raw).map (List.map fun s =>
        ((Token.parse s).operator, .text (Token.parse s).value)) := by
  rcases exists_givenValues (Value.hasTexts_of_isGiven given) with ⟨items, held, -, -⟩
  have scalars := isScalar_of_mem_givenValues given held
  rw [criteria, valueTexts, held, ok_bind, ok_bind, ← mapM_map]
  exact mapM_congr fun v member => Criterion.read_of_isScalar (scalars v member)

theorem criteria_of_isGiven
    {raw : Value} (given : raw.isGiven = true)
    {tokens : List String} (read : valueTexts raw = .ok tokens) :
    criteria raw =
      .ok (tokens.map fun s => ((Token.parse s).operator, .text (Token.parse s).value)) := by
  rw [criteria_eq_of_isGiven given, read]
  rfl

/-- An element is read as a token or is read already: its text is that of the token either way. -/
theorem Token.parse_plain (v : Value) :
    parse v.plain = ⟨(Criterion.ofElement v).1, (Criterion.ofElement v).2.plain⟩ := by
  rw [Criterion.ofElement.eq_def]
  split
  · next operator value => exact parse_text ⟨operator, value.plain⟩
  · rfl

/-- The criteria of a value are its tokens, with the texts of their values. -/
theorem exists_criteria_of_valueTexts
    {raw : Value} {tokens : List String} (read : valueTexts raw = .ok tokens) :
    ∃ found, criteria raw = .ok found ∧
      tokens.map Token.parse = found.map fun c => ⟨c.1, c.2.plain⟩ := by
  rcases exists_criteria read with ⟨items, -, rfl, criteria⟩
  refine ⟨_, criteria, ?_⟩
  rw [List.map_map, List.map_map]
  exact List.map_congr_left fun v _ => Token.parse_plain v

/-- A query of given values that can be written has their texts. -/
theorem Query.texts_of_isShowable
    {query : Query} (given : ∀ entry ∈ query, entry.2.isGiven = true)
    (showable : ∀ entry ∈ query, entry.2.IsShowable) :
    query.texts = .ok (query.map fun entry => (entry.1, entry.2.texts)) := by
  apply mapM_of_forall_ok
  intro entry member
  rw [valueTexts_of_hasTexts (Value.hasTexts_of_isGiven (given entry member)),
    Value.ifWritable_of_isShowable (showable entry member)]
  rfl

theorem Query.forall_isShowable_of_texts
    {query : Query} (given : ∀ entry ∈ query, entry.2.isGiven = true)
    {tokens : Link.Tokens} (read : query.texts = .ok tokens) :
    ∀ entry ∈ query, entry.2.IsShowable := by
  have each := (@forall_texts_iff query fun _ _ => True).mp ⟨tokens, read, fun _ _ => trivial⟩
  intro entry member
  rcases each entry member with ⟨values, written, -⟩
  rw [valueTexts_of_hasTexts (Value.hasTexts_of_isGiven (given entry member))] at written
  exact (Value.ifWritable_eq_ok_iff.mp written).1

/-- What a query of given values has for a key is a given value. -/
theorem Query.isGiven_get
    (query : Query) (given : ∀ entry ∈ query, entry.2.isGiven = true) (key : String) :
    (query.get key).isGiven = true := by
  rcases query.get_eq_null_or_mem key with nothing | member
  · rw [nothing]
    rfl
  · exact given _ member

end LedgerQuery
