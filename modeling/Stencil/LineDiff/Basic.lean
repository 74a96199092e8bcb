import Stencil.Text.Basic

/-!
# Lines and changes

A line difference turns the lines of one text into those of another. It is a list of changes, each
of which keeps, removes or adds some consecutive lines. Lines carry their ends with them, so the
lines of a text are the text.
-/

namespace Stencil

namespace Text

/-- The lines of a text with their ends: a line feed, a carriage return, or one of each in that
order. The last line may have no end. -/
def lines : Text → List Text
  | [] => []
  | '\n' :: rest => ['\n'] :: lines rest
  | '\r' :: '\n' :: rest => ['\r', '\n'] :: lines rest
  | '\r' :: rest => ['\r'] :: lines rest
  | [c] => [[c]]
  | c :: rest => glue c (lines rest)

/-- The lines of a text are all of it. -/
theorem flatten_lines (text : Text) : text.lines.flatten = text := by
  fun_induction lines text with
  | case1 => rfl
  | case2 _ ih => simp [ih]
  | case3 _ ih => simp [ih]
  | case4 _ _ ih => simp [ih]
  | case5 => rfl
  | case6 c rest _ _ _ nonempty ih =>
    cases h : lines rest with
    | nil => exact absurd (by simpa [h] using ih.symm) nonempty
    | cons first others => simpa [h, glue] using ih

end Text

/-- What a change does with its lines. -/
inductive ChangeKind where
  | keep
  | remove
  | add
  deriving DecidableEq, Repr

/-- Consecutive lines of which the same becomes. -/
structure Change where
  kind : ChangeKind
  lines : List Text
  deriving DecidableEq, Repr

namespace Change

/-- The lines that a list of changes begins with. -/
def before (changes : List Change) : List Text :=
  changes.flatMap fun change => if change.kind = .add then [] else change.lines

/-- The lines that a list of changes ends with. -/
def after (changes : List Change) : List Text :=
  changes.flatMap fun change => if change.kind = .remove then [] else change.lines

@[simp] theorem before_append (left right : List Change) :
    before (left ++ right) = before left ++ before right := by simp [before]

@[simp] theorem after_append (left right : List Change) :
    after (left ++ right) = after left ++ after right := by simp [after]

end Change

/-- How many lines two lists have in common at their beginnings. -/
def commonPrefix : List Text → List Text → Nat
  | first :: left, second :: right => if first = second then commonPrefix left right + 1 else 0
  | _, _ => 0

/-- How many lines two lists have in common at their ends. -/
def commonSuffix (left right : List Text) : Nat := commonPrefix left.reverse right.reverse

theorem commonPrefix_le (left right : List Text) :
    commonPrefix left right ≤ left.length ∧ commonPrefix left right ≤ right.length := by
  fun_induction commonPrefix left right with
  | case1 => simp_all
  | case2 => simp
  | case3 => simp

theorem commonSuffix_le (left right : List Text) :
    commonSuffix left right ≤ left.length ∧ commonSuffix left right ≤ right.length := by
  simpa [commonSuffix] using commonPrefix_le left.reverse right.reverse

/-- What two lists have in common at their beginnings is the same in both. -/
theorem take_commonPrefix (left right : List Text) :
    left.take (commonPrefix left right) = right.take (commonPrefix left right) := by
  fun_induction commonPrefix left right with
  | case1 left second right ih => simp [ih]
  | case2 => simp
  | case3 => simp

end Stencil
