import LedgerQuery.Proofs.Json.Reading
import LedgerQuery.Proofs.Numeral.Run
import LedgerQuery.Proofs.Sql.Spacing

/-!
# Written scalars

How strings, numbers and words are cut off where they are written.  A string is
read back in front of any text, whatever characters it holds: each of them is read
as itself, however it is escaped.  A number or a word is read back in front of a
text that does not go on with one of their characters.
-/

namespace LedgerQuery.Json

open Numeral (decimal signedDecimal)
open Sql (Avoids)

/-! ## Strings -/

section Escapes

variable {letter c : Char} {cs : List Char}

theorem readUnits_letter (escaped : unescape? letter = some c) :
    readUnits ('\\' :: letter :: cs) = (readUnits cs).map (ahead c.toNat) := by
  rw [readUnits.eq_def]
  simp only [escaped]
  rfl

theorem readUnits_unit {a b d e : Char} {unit : Nat} (digits : unit? [a, b, d, e] = some unit) :
    readUnits ('\\' :: 'u' :: a :: b :: d :: e :: cs) = (readUnits cs).map (ahead unit) := by
  rw [readUnits.eq_def]
  show (unit? [a, b, d, e]).bind _ = _
  rw [digits, Option.bind_some]

theorem readUnits_plain (noQuote : c ≠ '"') (noEscape : c ≠ '\\') (printable : 0x20 ≤ c.toNat) :
    readUnits (c :: cs) = (readUnits cs).map (ahead c.toNat) := by
  rw [readUnits.eq_def]
  dsimp only
  rw [if_neg noQuote, if_neg noEscape, if_neg (Nat.not_lt.mpr printable)]

theorem unescape?_of_shortEscape? (short : shortEscape? c = some letter) :
    unescape? letter = some c := by
  rw [shortEscape?] at short
  repeat' split at short
  all_goals first
    | cases short; subst_vars; rfl
    | cases short

/-- The digits of a control character are its code unit. -/
theorem unit?_fixed : ∀ n < 0x20, unit? (Text.Hex.fixed 4 n) = some n := by
  decide

/-- However a character is escaped, it is read as itself. -/
theorem readUnits_escape (c : Char) (cs : List Char) :
    readUnits (escape c ++ cs) = (readUnits cs).map (ahead c.toNat) := by
  rw [escape]
  split
  · next special =>
    apply readUnits_letter
    rcases special with rfl | rfl <;> rfl
  · next plain =>
    rw [not_or] at plain
    split
    · next control =>
      split
      · next short => exact readUnits_letter (unescape?_of_shortEscape? short)
      · exact readUnits_unit (unit?_fixed c.toNat control)
    · next printable => exact readUnits_plain plain.1 plain.2 (Nat.not_lt.mp printable)

end Escapes

theorem readUnits_flatMap_escape (text cs : List Char) :
    readUnits (text.flatMap escape ++ '"' :: cs) = some (text.map Char.toNat, cs) := by
  induction text with
  | nil =>
    rw [readUnits.eq_def]
    rfl
  | cons c text ih =>
    rw [List.flatMap_cons, List.append_assoc, readUnits_escape, ih, List.map_cons]
    rfl

/-- No character is half of a pair. -/
theorem not_isHalf (c : Char) : isFirstHalf c.toNat = false ∧ isSecondHalf c.toNat = false := by
  have valid : c.toNat < 0xd800 ∨ 0xdfff < c.toNat ∧ c.toNat < 0x110000 := c.valid
  simp only [isFirstHalf, isSecondHalf, Bool.and_eq_false_iff, decide_eq_false_iff_not]
  omega

theorem ofUnits?_cons
    {unit : Nat} (notFirst : isFirstHalf unit = false) (notSecond : isSecondHalf unit = false)
    (units : List Nat) :
    ofUnits? (unit :: units) = (ofUnits? units).map (Char.ofNat unit :: ·) := by
  rw [ofUnits?.eq_def]
  dsimp only
  rw [notFirst, notSecond]
  rfl

theorem ofUnits?_map_toNat (text : List Char) : ofUnits? (text.map Char.toNat) = some text := by
  induction text with
  | nil => rfl
  | cons c text ih =>
    rw [List.map_cons, ofUnits?_cons (not_isHalf c).1 (not_isHalf c).2, ih, Char.ofNat_toNat,
      Option.map_some]

/-- A string is read back, whatever its characters are. -/
theorem readString_flatMap_escape (s : String) (cs : List Char) :
    readString (s.toList.flatMap escape ++ '"' :: cs) = some (s, cs) := by
  rw [readString, readUnits_flatMap_escape, Option.bind_some, ofUnits?_map_toNat, Option.map_some,
    String.ofList_toList]

theorem lexemes_string (s : String) (cs : List Char) :
    lexemes (string s ++ cs) = (lexemes cs).map (.scalar (.text s) :: ·) := by
  have quoted : string s ++ cs = '"' :: (s.toList.flatMap escape ++ '"' :: cs) := by
    simp [string]
  rw [quoted]
  apply lexemes_of_next (by decide)
  rw [Lexeme.next]
  simp only [Lexeme.ofMark?, readString_flatMap_escape]
  rfl

/-! ## Numbers and words -/

theorem apart_of_isWordChar {c : Char} (word : isWordChar c = true) :
    isBlank c = false ∧ Lexeme.ofMark? c = none ∧ c ≠ '"' := by
  refine ⟨?_, ?_, ?_⟩
  · by_contra blank
    simp only [isBlank, Bool.not_eq_false, Bool.or_eq_true, beq_iff_eq] at blank
    rcases blank with ((rfl | rfl) | rfl) | rfl <;> cases word
  · rw [Lexeme.ofMark?.eq_def]
    split
    all_goals first
      | rfl
      | cases word
  · rintro rfl
    cases word

theorem lexemes_word
    {w rest : List Char} {v : Value} (filled : w ≠ []) (word : ∀ c ∈ w, isWordChar c = true)
    (read : word? w = some v) (stop : Avoids isWordChar rest) :
    lexemes (w ++ rest) = (lexemes rest).map (.scalar v :: ·) := by
  cases w with
  | nil => exact absurd rfl filled
  | cons c cs =>
    obtain ⟨first, inside⟩ := List.forall_mem_cons.mp word
    obtain ⟨solid, noMark, noQuote⟩ := apart_of_isWordChar first
    rw [List.cons_append]
    apply lexemes_of_next solid
    rw [Lexeme.next, noMark]
    dsimp only
    rw [if_neg noQuote, if_pos first, Sql.takeWhile_append_of_avoids inside stop,
      Sql.dropWhile_append_of_avoids inside stop, read, Option.map_some]

theorem isDigit_of_mem_decimal {n : Nat} : ∀ c ∈ decimal n, c.isDigit = true :=
  fun _ => Nat.isDigit_of_mem_toDigits (by decide) (by decide)

theorem isWhole_decimal (n : Nat) : isWhole (decimal n) = true := by
  have digits : areDigits (decimal n) = true := by
    rw [areDigits, List.all_eq_true.mpr isDigit_of_mem_decimal,
      List.isEmpty_eq_false_iff.mpr (Numeral.decimal_ne_nil n)]
    rfl
  rcases Nat.eq_zero_or_pos n with rfl | positive
  · rfl
  · simp [isWhole, digits, Numeral.head?_decimal_ne_zero positive]

theorem number?_signedDecimal (n : Int) : number? (signedDecimal n) = some (.int n) := by
  have digits := isDigit_of_mem_decimal (n := n.natAbs)
  have noPlus : (signedDecimal n).head? ≠ some '+' := by
    intro plus
    exact Numeral.notMem_signedDecimal (by decide) (by decide) (List.mem_of_head? plus)
  rw [number?, Numeral.splitSign_signedDecimal]
  dsimp only
  rw [List.takeWhile_eq_self_iff.mpr digits, List.dropWhile_eq_nil_iff.mpr digits, isWhole_decimal,
    if_neg (by simp [noPlus]), if_pos rfl, Numeral.value_decimal, Numeral.signed_natAbs]

theorem isWordChar_of_mem_signedDecimal {n : Int} : ∀ c ∈ signedDecimal n, isWordChar c = true := by
  intro c member
  rw [Numeral.signedDecimal_eq, List.mem_append] at member
  rcases member with sign | digit
  · split at sign
    · rw [List.mem_singleton.mp sign]
      rfl
    · cases sign
  · simp [isWordChar, Char.isAlphanum, isDigit_of_mem_decimal c digit]

/-- A number is none of the words. -/
theorem word?_signedDecimal (n : Int) : word? (signedDecimal n) = some (.int n) := by
  have noLetter {w : List Char} {c : Char} (sign : c ≠ '-') (letter : Text.isDigit c = false)
      (member : c ∈ w) : signedDecimal n ≠ w := by
    rintro rfl
    exact Numeral.notMem_signedDecimal sign letter member
  rw [word?, if_neg (noLetter (by decide) (by decide) (by decide : 'l' ∈ "null".toList)),
    if_neg (noLetter (by decide) (by decide) (by decide : 'e' ∈ "true".toList)),
    if_neg (noLetter (by decide) (by decide) (by decide : 'e' ∈ "false".toList)),
    number?_signedDecimal]

theorem lexemes_signedDecimal {rest : List Char} (n : Int) (stop : Avoids isWordChar rest) :
    lexemes (signedDecimal n ++ rest) = (lexemes rest).map (.scalar (.int n) :: ·) := by
  refine lexemes_word ?_ isWordChar_of_mem_signedDecimal (word?_signedDecimal n) stop
  rw [Numeral.signedDecimal_eq]
  exact List.append_ne_nil_of_right_ne_nil _ (Numeral.decimal_ne_nil _)

theorem lexemes_boolWord {rest : List Char} (b : Bool) (stop : Avoids isWordChar rest) :
    lexemes (boolWord b ++ rest) = (lexemes rest).map (.scalar (.bool b) :: ·) := by
  have read : word? (boolWord b) = some (.bool b) := by
    cases b with
    | false => rw [word?, if_neg (by decide), if_neg (by decide), if_pos (by decide)]
    | true => rw [word?, if_neg (by decide), if_pos (by decide)]
  cases b <;> exact lexemes_word (by decide) (List.all_eq_true.mp (by decide)) read stop

theorem lexemes_null {rest : List Char} (stop : Avoids isWordChar rest) :
    lexemes ("null".toList ++ rest) = (lexemes rest).map (.scalar .null :: ·) :=
  lexemes_word (by decide) (List.all_eq_true.mp (by decide)) (by rw [word?, if_pos rfl]) stop

/-! ## Letters of bytes -/

theorem escape_letter (value : Nat) :
    escape (Text.Base64.letter value) = [Text.Base64.letter value] := by
  have small : ∀ value < 64, escape (Text.Base64.letter value) = [Text.Base64.letter value] := by
    decide +kernel
  by_cases fits : value < 64
  · exact small value fits
  · rw [Text.Base64.letter, List.getD_eq_default _ _ (Nat.not_lt.mp fits)]
    decide

/-- The letters of bytes stand for themselves. -/
theorem flatMap_escape_encode (bytes : List UInt8) :
    (Text.Base64.encode bytes).flatMap escape = Text.Base64.encode bytes := by
  have padding : escape '=' = ['='] := by decide
  fun_induction Text.Base64.encode bytes with
  | case1 => rfl
  | case2 | case3 => simp only [List.flatMap_cons, escape_letter, padding]; rfl
  | case4 a b c rest ih =>
    simp only [List.flatMap_cons, escape_letter, ih]
    rfl

/-- Bytes are written as the text of their letters. -/
theorem write_bytes (bytes : List UInt8) :
    write (.bytes bytes) = string (String.ofList (Text.Base64.encode bytes)) := by
  rw [string, String.toList_ofList, flatMap_escape_encode]
  rfl

end LedgerQuery.Json
