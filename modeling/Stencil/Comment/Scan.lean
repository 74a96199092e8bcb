import Stencil.Comment.Basic
import Stencil.Text.Offset
import Stencil.Text.Search
import Stencil.Text.Whitespace

/-!
# Scanning for comments

Each style is scanned on its own, from any position. A line comment is looked for in each line
separately, and a line holds at most one. Block comments are looked for one after the other: a
block comment ends at the first closer that does not overlap its opener, and one that is never
closed ends the scan.
-/

namespace Stencil.Comment

open Text

/-- The characters that may follow the content of a line comment on its line. -/
def isLineEnd (c : Char) : Bool := isBlank c || c == '\r'

/-- The comment of one line that begins at `position`, if the line holds two slashes in a row. -/
def ofLine? (position : Nat) (line : Text) : Option Comment :=
  (find? ['/', '/'] line).map fun before =>
    let slashes := (line.drop before).takeWhile (· == '/')
    let visible := trimEnd isLineEnd (line.drop (before + slashes.length))
    { style := .line
      start := position + before
      opener := slashes.length
      lead := (visible.takeWhile isBlank).length
      text := visible.dropWhile isBlank
      trail := 0 }

/-- The line comments of consecutive lines, the first of which begins at `position`. -/
def ofLines (position : Nat) : List Text → List Comment
  | [] => []
  | line :: rest => (ofLine? position line).toList ++ ofLines (position + line.length + 1) rest

/-- The block comment whose slash-star stands at `start` and whose inside is `interior`. -/
def ofInterior (start : Nat) (interior : Text) : Comment :=
  let lead := (interior.takeWhile isAsciiSpace).length
  let text := trim isAsciiSpace interior
  { style := .block
    start
    opener := 2
    lead
    text
    trail := interior.length - lead - text.length + 2 }

/-- The block comments of a text that begins at `position`. -/
def blocks (position : Nat) (text : Text) : List Comment :=
  match h : find? ['/', '*'] text with
  | none => []
  | some before =>
    let inside := text.drop (before + 2)
    match find? ['*', '/'] inside with
    | none => []
    | some length =>
      ofInterior (position + before) (inside.take length) ::
        blocks (position + before + length + 4) (inside.drop (length + 2))
  termination_by text.length
  decreasing_by
    have := find?_bound h
    simp only [List.length_cons, List.length_nil, List.length_drop] at this ⊢
    omega

/-- The comments of one style in a text that begins at `position`. -/
def scanFrom (style : Style) (position : Nat) (text : Text) : List Comment :=
  match style with
  | .line => ofLines position (pieces text)
  | .block => blocks position text

/-- The comments of one style in `text` at or after the position `start`, in order. -/
def scan (text : Text) (start : Nat) (style : Style) : List Comment :=
  scanFrom style (min start text.length) (text.drop start)

/-- The comments of one style at or after a byte offset, which may fall inside a character. -/
def scanAt (text : Text) (offset : Nat) (style : Style) : List Comment :=
  scan text (positionAfter offset text) style

end Stencil.Comment
