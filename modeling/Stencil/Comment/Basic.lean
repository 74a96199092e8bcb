import Stencil.Text.Basic

/-!
# Comments

A comment is kept as the lengths of its parts, in order, so all of its ranges are sums of lengths:
the opener, the whitespace before the content, the content itself, and whatever of the comment
follows the content.
-/

namespace Stencil

/-- The two comment styles that can carry a marker. -/
inductive Style where
  /-- From two or more slashes to the end of the line. -/
  | line
  /-- Between a slash-star and the next star-slash, possibly over several lines. -/
  | block
  deriving DecidableEq, Repr

/-- The word for a style. -/
def Style.name : Style → String
  | line => "line"
  | block => "block"

/-- A comment in a document. -/
structure Comment where
  style : Style
  /-- The position of the opener. -/
  start : Nat
  /-- The length of the opener: of the whole run of slashes, or of the slash-star. -/
  opener : Nat
  /-- How many characters of whitespace separate the opener from the content. -/
  lead : Nat
  /-- The visible content, without the whitespace around it. -/
  text : Text
  /-- How many characters of the comment follow the content; a line comment ends with it. -/
  trail : Nat
  deriving DecidableEq, Repr

namespace Comment

/-- The range of the visible content. -/
def content (comment : Comment) : Span :=
  ⟨comment.start + comment.opener + comment.lead,
    comment.start + comment.opener + comment.lead + comment.text.length⟩

/-- The range of the comment, delimiters included. -/
def span (comment : Comment) : Span :=
  ⟨comment.start, comment.content.stop + comment.trail⟩

/-- The position just after the comment. -/
abbrev stop (comment : Comment) : Nat := comment.span.stop

/-- The content lies inside the comment, after the opener. -/
theorem content_within (comment : Comment) :
    comment.start + comment.opener ≤ comment.content.start ∧
      comment.content.start ≤ comment.content.stop ∧ comment.content.stop ≤ comment.stop := by
  simp only [content, stop, span]
  omega

end Comment

end Stencil
