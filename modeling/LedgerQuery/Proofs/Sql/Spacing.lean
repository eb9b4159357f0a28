import LedgerQuery.Sql.Lexeme

/-!
# Which lexemes may stand side by side

Scanning is characterised without the scanner.  A lexeme is whole when its text
is one that the scanner can cut out, and it may precede a text when the scanner
does not read on into that text.  The first main statement says that the scanner
cuts off a lexeme exactly when it is whole and may precede what remains; the
second one extends this to all lexemes of a text.

Texts are then compared by comparing lists of lexemes: a list that is changed
without putting two lexemes side by side that do not go together is the list of
lexemes of its own text.
-/

namespace LedgerQuery.Sql

/-- A text that does not begin with a character of a class. -/
def Avoids (p : Char → Bool) (cs : List Char) : Prop :=
  ∀ c ∈ cs.head?, p c = false

section Avoids

variable {p : Char → Bool} {cs run rest : List Char}

@[simp]
theorem avoids_nil : Avoids p [] := by
  intro c member
  cases member

@[simp]
theorem avoids_cons {c : Char} : Avoids p (c :: cs) ↔ p c = false := by
  simp [Avoids]

theorem avoids_dropWhile (p : Char → Bool) (cs : List Char) :
    Avoids p (cs.dropWhile p) := by
  intro c member
  have stopped := List.head?_dropWhile_not p cs
  rw [Option.mem_def.mp member] at stopped
  simpa using stopped

theorem takeWhile_append_of_avoids
    (whole : ∀ c ∈ run, p c = true)
    (stop : Avoids p rest) :
    (run ++ rest).takeWhile p = run := by
  rw [List.takeWhile_append_of_pos whole]
  cases rest with
  | nil => simp
  | cons c rest => simp [avoids_cons.mp stop]

theorem takeWhile_eq_nil_iff_avoids : cs.takeWhile p = [] ↔ Avoids p cs := by
  cases cs with
  | nil => simp
  | cons c cs => cases inside : p c <;> simp [inside]

theorem dropWhile_append_of_avoids
    (whole : ∀ c ∈ run, p c = true)
    (stop : Avoids p rest) :
    (run ++ rest).dropWhile p = rest := by
  rw [List.dropWhile_append_of_pos whole]
  cases rest with
  | nil => rfl
  | cons c rest => simp [avoids_cons.mp stop]

theorem all_takeWhile (p : Char → Bool) (cs : List Char) :
    ∀ c ∈ cs.takeWhile p, p c = true := by
  intro c member
  exact List.all_eq_true.mp (List.all_takeWhile) c member

end Avoids

/-! ## Closing marks -/

section Closing

variable {quote : Char}

@[simp]
theorem closeQuote_quote (cs : List Char) :
    closeQuote quote (quote :: cs) = some ([quote], cs) := by
  cases cs <;> simp [closeQuote]

theorem closeQuote_escape
    (notQuote : '\\' ≠ quote) (d : Char) (cs : List Char) :
    closeQuote quote ('\\' :: d :: cs) =
      (closeQuote quote cs).map (before ['\\', d]) := by
  simp [closeQuote, notQuote]

theorem closeQuote_other
    {c : Char} (notQuote : ¬c = quote) (notEscape : ¬c = '\\') (cs : List Char) :
    closeQuote quote (c :: cs) = (closeQuote quote cs).map (before [c]) := by
  cases cs <;> simp [closeQuote, notQuote, notEscape]

/-- What closes a quoted text closes it in front of any other text. -/
theorem closeQuote_swap
    {cs text rest : List Char}
    (closed : closeQuote quote cs = some (text, rest))
    (other : List Char) :
    closeQuote quote (text ++ other) = some (text, other) := by
  fun_induction closeQuote quote cs generalizing text with
  | case1 => cases closed
  | case2 cs =>
    cases closed
    exact closeQuote_quote other
  | case3 => cases closed
  | case4 d ds notQuote ih =>
    rcases Option.map_eq_some_iff.mp closed with ⟨inner, found, same⟩
    cases same
    simp [closeQuote_escape notQuote, ih found, before]
  | case5 c cs notQuote notEscape ih =>
    rcases Option.map_eq_some_iff.mp closed with ⟨inner, found, same⟩
    cases same
    simp [closeQuote_other notQuote notEscape, ih found, before]

end Closing

theorem closeComment_other
    {c : Char} {cs : List Char}
    (notMark : ∀ ds, c = '*' → cs = '/' :: ds → False) :
    closeComment (c :: cs) = (closeComment cs).map (before [c]) :=
  closeComment.eq_3 c cs notMark

/-- A block comment begins with the first character of its text. -/
theorem closeComment_head
    {cs text rest : List Char}
    (closed : closeComment cs = some (text, rest)) :
    ∃ c tail more, text = c :: tail ∧ cs = c :: more := by
  fun_induction closeComment cs with
  | case1 => cases closed
  | case2 ds =>
    cases closed
    exact ⟨_, _, _, rfl, rfl⟩
  | case3 c cs notMark ih =>
    rcases Option.map_eq_some_iff.mp closed with ⟨inner, found, same⟩
    cases same
    exact ⟨_, _, _, rfl, rfl⟩

/-- What closes a block comment closes it in front of any other text. -/
theorem closeComment_swap
    {cs text rest : List Char}
    (closed : closeComment cs = some (text, rest))
    (other : List Char) :
    closeComment (text ++ other) = some (text, other) := by
  fun_induction closeComment cs generalizing text with
  | case1 => cases closed
  | case2 ds =>
    cases closed
    rfl
  | case3 c cs notMark ih =>
    rcases Option.map_eq_some_iff.mp closed with ⟨inner, found, same⟩
    cases same
    rcases closeComment_head found with ⟨d, tail, more, innerEq, csEq⟩
    -- The first two characters are those of the comment, which are no end mark.
    have stillNotMark : ∀ ds, c = '*' → inner.1 ++ other = '/' :: ds → False := by
      intro ds star slash
      rw [innerEq, List.cons_append] at slash
      cases slash
      exact notMark more star csEq
    show closeComment (c :: (inner.1 ++ other)) = _
    rw [closeComment_other stillNotMark, ih found]
    rfl

/-! ## One lexeme -/

/-- A character that a question mark takes with it. -/
def continuesQuestion (c : Char) : Bool :=
  c == '?' || c == '|' || c == '&' || Text.isNameStart c

namespace Lexeme

/-- A lexeme whose text is one that the scanner can cut out. -/
def IsWhole : Lexeme → Prop
  | literal text =>
    ∃ quote body, (quote = '"' ∨ quote = '\'') ∧ text = quote :: body ∧
      closeQuote quote body = some (body, [])
  | comment text =>
    (∃ body, text = '-' :: '-' :: body ∧ ∀ c ∈ body, inLine c = true) ∨
      ∃ body, text = '/' :: '*' :: body ∧ closeComment body = some (body, [])
  | questionPair second => second = '?' ∨ second = '|' ∨ second = '&'
  | named name =>
    ∃ c cs, name = c :: cs ∧ Text.isNameStart c = true ∧ ∀ d ∈ cs, Text.isWord d = true
  | anonymous => True
  | numbered digits => digits ≠ [] ∧ ∀ d ∈ digits, Text.isDigit d = true
  | plain c => c ≠ '?'

theorem IsWhole.source_ne_nil
    {l : Lexeme}
    (whole : l.IsWhole) :
    l.source ≠ [] := by
  cases l with
  | literal text =>
    rcases whole with ⟨quote, body, -, rfl, -⟩
    exact List.cons_ne_nil _ _
  | comment text =>
    rcases whole with ⟨body, rfl, -⟩ | ⟨body, rfl, -⟩ <;> exact List.cons_ne_nil _ _
  | questionPair second => exact List.cons_ne_nil _ _
  | named name => exact List.cons_ne_nil _ _
  | anonymous => exact List.cons_ne_nil _ _
  | numbered digits => exact List.cons_ne_nil _ _
  | plain c => exact List.cons_ne_nil _ _

/-- A lexeme that the scanner does not continue into the text behind it. -/
def MayPrecede : Lexeme → List Char → Prop
  | literal _, _ => True
  | comment text, rest => text.head? = some '-' → Avoids inLine rest
  | questionPair _, _ => True
  | named _, rest => Avoids Text.isWord rest
  | anonymous, rest => Avoids continuesQuestion rest
  | numbered _, rest => Avoids Text.isDigit rest
  | plain c, rest =>
    (c = '"' ∨ c = '\'' → closeQuote c rest = none) ∧
      (c = '-' → Avoids (· == '-') rest) ∧
      (c = '/' → ∀ ds, rest = '*' :: ds → closeComment ds = none) ∧
      (c = '$' → Avoids Text.isDigit rest)

theorem next_quote
    {c : Char} (quote : c = '"' ∨ c = '\'') (cs : List Char) :
    next c cs = ofQuote c cs := by
  rw [next, if_pos quote]

@[simp]
theorem next_hyphen (cs : List Char) : next '-' cs = ofHyphen cs := by
  simp [next]

@[simp]
theorem next_slash (cs : List Char) : next '/' cs = ofSlash cs := by
  simp [next]

@[simp]
theorem next_question (cs : List Char) : next '?' cs = ofQuestion cs := by
  simp [next]

@[simp]
theorem next_dollar (cs : List Char) : next '$' cs = ofDollar cs := by
  simp [next]

theorem next_other
    {c : Char} (cs : List Char)
    (notQuote : ¬(c = '"' ∨ c = '\'')) (notHyphen : c ≠ '-') (notSlash : c ≠ '/')
    (notQuestion : c ≠ '?') (notDollar : c ≠ '$') :
    next c cs = (plain c, cs) := by
  rw [next, if_neg notQuote, if_neg notHyphen, if_neg notSlash, if_neg notQuestion,
    if_neg notDollar]

/-! ### What the scanner cuts off is whole and stops where it must -/

theorem fits_ofQuote
    {quote : Char} (isQuote : quote = '"' ∨ quote = '\'') (cs : List Char) :
    (ofQuote quote cs).1.IsWhole ∧ (ofQuote quote cs).1.MayPrecede (ofQuote quote cs).2 := by
  rw [ofQuote]
  split
  · next text rest closed =>
    have alone := closeQuote_swap closed []
    rw [List.append_nil] at alone
    exact ⟨⟨quote, text, isQuote, rfl, alone⟩, trivial⟩
  · next unclosed =>
    rcases isQuote with rfl | rfl
    · exact ⟨by simp [IsWhole], by simpa [MayPrecede] using unclosed⟩
    · exact ⟨by simp [IsWhole], by simpa [MayPrecede] using unclosed⟩

theorem fits_ofHyphen (cs : List Char) :
    (ofHyphen cs).1.IsWhole ∧ (ofHyphen cs).1.MayPrecede (ofHyphen cs).2 := by
  by_cases second : ∃ ds, cs = '-' :: ds
  · rcases second with ⟨ds, rfl⟩
    constructor
    · exact Or.inl ⟨_, rfl, all_takeWhile inLine ds⟩
    · intro isLine
      exact avoids_dropWhile inLine ds
  · rw [ofHyphen.eq_2 cs (fun ds same => second ⟨ds, same⟩)]
    constructor
    · simp [IsWhole]
    · cases cs with
      | nil => simp [MayPrecede]
      | cons c cs =>
        have : c ≠ '-' := by
          rintro rfl
          exact second ⟨cs, rfl⟩
        simp [MayPrecede, this]

theorem fits_ofSlash (cs : List Char) :
    (ofSlash cs).1.IsWhole ∧ (ofSlash cs).1.MayPrecede (ofSlash cs).2 := by
  by_cases star : ∃ ds, cs = '*' :: ds
  · rcases star with ⟨ds, rfl⟩
    rw [ofSlash]
    split
    · next text rest closed =>
      have alone := closeComment_swap closed []
      rw [List.append_nil] at alone
      exact ⟨Or.inr ⟨text, rfl, alone⟩, by simp [MayPrecede]⟩
    · next unclosed => exact ⟨by simp [IsWhole], by simpa [MayPrecede] using unclosed⟩
  · rw [ofSlash.eq_2 cs (fun ds same => star ⟨ds, same⟩)]
    constructor
    · simp [IsWhole]
    · have noComment : ∀ ds, cs = '*' :: ds → closeComment ds = none := by
        intro ds same
        exact (star ⟨ds, same⟩).elim
      simpa [MayPrecede] using noComment

theorem fits_ofQuestion (cs : List Char) :
    (ofQuestion cs).1.IsWhole ∧ (ofQuestion cs).1.MayPrecede (ofQuestion cs).2 := by
  cases cs with
  | nil => exact ⟨trivial, avoids_nil⟩
  | cons c cs =>
    rw [ofQuestion]
    split
    · next pair => exact ⟨pair, trivial⟩
    · next notPair =>
      split
      · next start =>
        exact ⟨⟨c, _, rfl, start, all_takeWhile Text.isWord cs⟩,
          avoids_dropWhile Text.isWord cs⟩
      · next notStart =>
        refine ⟨trivial, avoids_cons.mpr ?_⟩
        simp only [not_or] at notPair
        simp [continuesQuestion, notPair, notStart]

theorem fits_ofDollar (cs : List Char) :
    (ofDollar cs).1.IsWhole ∧ (ofDollar cs).1.MayPrecede (ofDollar cs).2 := by
  simp only [ofDollar]
  split
  · next noDigit =>
    rw [List.isEmpty_iff] at noDigit
    have same : cs.dropWhile Text.isDigit = cs := by
      simpa [noDigit] using
        (List.takeWhile_append_dropWhile : cs.takeWhile Text.isDigit ++ _ = cs)
    have stop := avoids_dropWhile Text.isDigit cs
    rw [same] at stop
    exact ⟨by simp [IsWhole], by simpa [MayPrecede] using stop⟩
  · next someDigit =>
    rw [List.isEmpty_iff] at someDigit
    exact ⟨⟨someDigit, all_takeWhile Text.isDigit cs⟩, avoids_dropWhile Text.isDigit cs⟩

theorem fits_next (c : Char) (cs : List Char) :
    (next c cs).1.IsWhole ∧ (next c cs).1.MayPrecede (next c cs).2 := by
  rw [next]
  split
  · next isQuote => exact fits_ofQuote isQuote cs
  split
  · exact fits_ofHyphen cs
  split
  · exact fits_ofSlash cs
  split
  · exact fits_ofQuestion cs
  split
  · exact fits_ofDollar cs
  · next notQuote notHyphen notSlash notQuestion notDollar =>
    refine ⟨notQuestion, ?_⟩
    simp [MayPrecede, notQuote, notHyphen, notSlash, notDollar]

/-! ### What is whole and stops where it must is cut off -/

theorem next_literal
    {text : List Char} {c : Char} {cs rest : List Char}
    (whole : (literal text).IsWhole)
    (same : text ++ rest = c :: cs) :
    next c cs = (literal text, rest) := by
  rcases whole with ⟨quote, body, isQuote, rfl, closed⟩
  rw [List.cons_append] at same
  cases same
  rw [next_quote isQuote, ofQuote, closeQuote_swap closed rest]

theorem next_comment
    {text : List Char} {c : Char} {cs rest : List Char}
    (whole : (comment text).IsWhole)
    (stop : (comment text).MayPrecede rest)
    (same : text ++ rest = c :: cs) :
    next c cs = (comment text, rest) := by
  rcases whole with ⟨body, rfl, inside⟩ | ⟨body, rfl, closed⟩
  · simp only [List.cons_append] at same
    cases same
    have ends : Avoids inLine rest := stop rfl
    rw [next_hyphen, ofHyphen, takeWhile_append_of_avoids inside ends,
      dropWhile_append_of_avoids inside ends]
  · simp only [List.cons_append] at same
    cases same
    rw [next_slash, ofSlash, closeComment_swap closed rest]

theorem not_special_of_isNameStart
    {c : Char}
    (start : Text.isNameStart c = true) :
    ¬(c = '?' ∨ c = '|' ∨ c = '&') := by
  rintro (rfl | rfl | rfl) <;> exact absurd start (by decide)

theorem next_named
    {name : List Char} {c : Char} {cs rest : List Char}
    (whole : (named name).IsWhole)
    (stop : Avoids Text.isWord rest)
    (same : '?' :: name ++ rest = c :: cs) :
    next c cs = (named name, rest) := by
  rcases whole with ⟨first, more, rfl, start, inside⟩
  simp only [List.cons_append] at same
  cases same
  rw [next_question, ofQuestion, if_neg (not_special_of_isNameStart start),
    if_pos start, takeWhile_append_of_avoids inside stop,
    dropWhile_append_of_avoids inside stop]

theorem ofQuestion_of_avoids
    {rest : List Char}
    (stop : Avoids continuesQuestion rest) :
    ofQuestion rest = (anonymous, rest) := by
  cases rest with
  | nil => rfl
  | cons c rest =>
    have ends := avoids_cons.mp stop
    simp only [continuesQuestion, Bool.or_eq_false_iff, beq_eq_false_iff_ne] at ends
    simp [ofQuestion, ends]

theorem next_numbered
    {digits : List Char} {c : Char} {cs rest : List Char}
    (whole : (numbered digits).IsWhole)
    (stop : Avoids Text.isDigit rest)
    (same : '$' :: digits ++ rest = c :: cs) :
    next c cs = (numbered digits, rest) := by
  rcases whole with ⟨someDigit, inside⟩
  rw [List.cons_append] at same
  cases same
  simp only [next_dollar, ofDollar, takeWhile_append_of_avoids inside stop,
    dropWhile_append_of_avoids inside stop]
  rw [if_neg (by simpa using someDigit)]

theorem next_plain
    {c : Char} {rest : List Char}
    (whole : (plain c).IsWhole)
    (stop : (plain c).MayPrecede rest) :
    next c rest = (plain c, rest) := by
  rcases stop with ⟨unclosed, noHyphen, noComment, noDigit⟩
  by_cases quote : c = '"' ∨ c = '\''
  · rw [next_quote quote, ofQuote, unclosed quote]
  by_cases hyphen : c = '-'
  · subst hyphen
    rw [next_hyphen, ofHyphen.eq_2]
    rintro cs rfl
    simpa using noHyphen rfl
  by_cases slash : c = '/'
  · subst slash
    rw [next_slash]
    by_cases star : ∃ ds, rest = '*' :: ds
    · rcases star with ⟨ds, rfl⟩
      rw [ofSlash, noComment rfl ds rfl]
    · exact ofSlash.eq_2 rest (fun ds same => star ⟨ds, same⟩)
  by_cases dollar : c = '$'
  · subst dollar
    simp [ofDollar, takeWhile_eq_nil_iff_avoids.mpr (noDigit rfl)]
  exact next_other rest quote hyphen slash whole dollar

/-- The scanner cuts off a lexeme exactly when it is whole and may precede what remains. -/
theorem next_eq_iff
    {c : Char} {cs rest : List Char} {l : Lexeme} :
    next c cs = (l, rest) ↔
      l.source ++ rest = c :: cs ∧ l.IsWhole ∧ l.MayPrecede rest := by
  constructor
  · intro cut
    have together := next_append c cs
    have fits := fits_next c cs
    rw [cut] at together fits
    exact ⟨together, fits⟩
  · rintro ⟨same, whole, stop⟩
    cases l with
    | literal text => exact next_literal whole same
    | comment text => exact next_comment whole stop same
    | questionPair second =>
      simp only [source, List.cons_append, List.nil_append] at same
      cases same
      rw [next_question, ofQuestion]
      exact if_pos whole
    | named name => exact next_named whole stop same
    | anonymous =>
      cases same
      exact (next_question _).trans (ofQuestion_of_avoids stop)
    | numbered digits => exact next_numbered whole stop same
    | plain d =>
      cases same
      exact next_plain whole stop

end Lexeme

/-! ## All lexemes -/

@[simp]
theorem sources_nil : sources [] = [] := rfl

@[simp]
theorem sources_cons (l : Lexeme) (ls : List Lexeme) :
    sources (l :: ls) = l.source ++ sources ls := rfl

theorem sources_append (ls ms : List Lexeme) : sources (ls ++ ms) = sources ls ++ sources ms :=
  List.flatMap_append

/-- Whole lexemes of which each may precede the text of those behind it. -/
def Spaced : List Lexeme → Prop
  | [] => True
  | l :: ls => l.IsWhole ∧ l.MayPrecede (sources ls) ∧ Spaced ls

@[simp]
theorem lexemes_nil : lexemes [] = [] := by
  rw [lexemes]

theorem lexemes_star (cs : List Char) :
    lexemes ('*' :: cs) = .plain '*' :: lexemes cs := by
  rw [lexemes, Lexeme.next_other cs] <;> decide

theorem spaced_lexemes (cs : List Char) : Spaced (lexemes cs) := by
  fun_induction lexemes cs with
  | case1 => trivial
  | case2 c cs ih =>
    rw [Spaced, sources_lexemes]
    exact ⟨(Lexeme.fits_next c cs).1, (Lexeme.fits_next c cs).2, ih⟩

/-- A list of lexemes that go together is read back from its text. -/
theorem lexemes_sources
    {ls : List Lexeme}
    (spaced : Spaced ls) :
    lexemes (sources ls) = ls := by
  induction ls with
  | nil => exact lexemes_nil
  | cons l ls ih =>
    rcases spaced with ⟨whole, stop, rest⟩
    rcases List.exists_cons_of_ne_nil whole.source_ne_nil with ⟨c, tail, sourceEq⟩
    have same : l.source ++ sources ls = c :: (tail ++ sources ls) := by
      rw [sourceEq, List.cons_append]
    have cut := Lexeme.next_eq_iff.mpr ⟨same, whole, stop⟩
    rw [sources_cons, same, lexemes, cut, ih rest]

/-- The lexemes of a text are the one list that goes together and has this text. -/
theorem lexemes_eq_iff
    {cs : List Char} {ls : List Lexeme} :
    lexemes cs = ls ↔ sources ls = cs ∧ Spaced ls := by
  constructor
  · rintro rfl
    exact ⟨sources_lexemes cs, spaced_lexemes cs⟩
  · rintro ⟨rfl, spaced⟩
    exact lexemes_sources spaced

end LedgerQuery.Sql
