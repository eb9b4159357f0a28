/-!
# Lines

A text that is matched as a whole line may carry one line feed at its end, which is not part of what
is matched.
-/

namespace LedgerQuery.Text

/-- The text without one final line feed. -/
def line : List Char → List Char
  | [] => []
  | ['\n'] => []
  | c :: cs => c :: line cs

@[simp]
theorem line_nil : line [] = [] := rfl

theorem line_append_newline (cs : List Char) : line (cs ++ ['\n']) = cs := by
  induction cs with
  | nil => rfl
  | cons c cs ih =>
    cases cs with
    | nil => by_cases h : c = '\n' <;> simp [line, h]
    | cons d ds => simpa [line] using ih

/-- A text that does not end in a line feed is its own line. -/
theorem line_eq_self {cs : List Char} (noFeed : cs.getLast? ≠ some '\n') : line cs = cs := by
  induction cs with
  | nil => rfl
  | cons c cs ih =>
    cases cs with
    | nil =>
      have : c ≠ '\n' := by simpa using noFeed
      simp [line, this]
    | cons d ds =>
      have : line (d :: ds) = d :: ds := ih (by simpa using noFeed)
      simp [line, this]

/-- A text is its line, with or without one line feed behind it. -/
theorem eq_line_or (cs : List Char) : cs = line cs ∨ cs = line cs ++ ['\n'] := by
  fun_induction line cs with
  | case1 => exact Or.inl rfl
  | case2 => exact Or.inr rfl
  | case3 c cs _ ih => exact ih.imp (congrArg (c :: ·)) (congrArg (c :: ·))

end LedgerQuery.Text
