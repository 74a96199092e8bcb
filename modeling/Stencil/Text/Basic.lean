/-!
# Texts

A text is the list of its characters, and a position in a text is the number of characters in
front of it. Everything that reads documents works on positions, so no range can begin or end
inside a character; sizes in bytes are computed where they are reported.
-/

namespace Stencil

/-- A text, character by character. -/
abbrev Text := List Char

/-- The range of positions from `start` up to, and not including, `stop`. -/
structure Span where
  start : Nat
  stop : Nat
  deriving DecidableEq, Repr

namespace Text

/-- Blanks are the characters that indent a line: the space and the tab. -/
def isBlank (c : Char) : Bool := c == ' ' || c == '\t'

/-- The text without the longest ending whose characters all satisfy `p`. -/
def trimEnd (p : Char → Bool) (text : Text) : Text := (text.reverse.dropWhile p).reverse

/-- The text without the longest beginning and ending whose characters all satisfy `p`. -/
def trim (p : Char → Bool) (text : Text) : Text := trimEnd p (text.dropWhile p)

/-- The characters of `text` whose positions lie in `span`. -/
def slice (text : Text) (span : Span) : Text := (text.drop span.start).take (span.stop - span.start)

/-- Put `c` in front of the first of several texts. -/
def glue (c : Char) : List Text → List Text
  | [] => [[c]]
  | first :: rest => (c :: first) :: rest

/-- The texts between the occurrences of `mark`; there is always one more of them than marks. -/
def cut (mark : Char) (text : Text) : List Text :=
  text.foldr (fun c pieces => if c == mark then [] :: pieces else glue c pieces) [[]]

@[simp] theorem cut_nil (mark : Char) : cut mark [] = [[]] := rfl

/-- A mark begins a new piece, and every other character joins the first one. -/
theorem cut_cons (mark c : Char) (text : Text) :
    cut mark (c :: text) = if c == mark then [] :: cut mark text else glue c (cut mark text) := rfl

theorem cut_ne_nil (mark : Char) (text : Text) : cut mark text ≠ [] := by
  cases text with
  | nil => simp
  | cons c text =>
    rw [cut_cons]
    split
    · simp
    · cases cut mark text <;> simp [glue]

/-- The lines of a text, each without the line feed that ends it. -/
def pieces (text : Text) : List Text := cut '\n' text

/-- Join texts with `mark` between neighbours. -/
def join (mark : Char) : List Text → Text
  | [] => []
  | [text] => text
  | text :: rest => text ++ mark :: join mark rest

/-- Cutting at a mark and joining with it gives the text back. -/
theorem join_cut (mark : Char) (text : Text) : join mark (cut mark text) = text := by
  induction text with
  | nil => rfl
  | cons c text ih =>
    rw [cut_cons]
    cases h : cut mark text with
    | nil => exact absurd h (cut_ne_nil mark text)
    | cons first rest =>
      rw [h] at ih
      split
      · next hc => simp [join, ih, eq_of_beq hc]
      · cases rest with
        | nil => simpa [glue, join] using ih
        | cons second rest => simpa [glue, join] using ih

/-- The text as a string, for messages. -/
def string (text : Text) : String := String.ofList text

/-- The number of bytes that the text takes when it is written as UTF-8. -/
def byteSize (text : Text) : Nat := text.foldr (fun c size => c.utf8Size + size) 0

@[simp] theorem byteSize_nil : byteSize [] = 0 := rfl

@[simp] theorem byteSize_cons (c : Char) (text : Text) :
    byteSize (c :: text) = c.utf8Size + byteSize text := rfl

@[simp] theorem byteSize_append (left right : Text) :
    byteSize (left ++ right) = byteSize left + byteSize right := by
  induction left with
  | nil => simp
  | cons c left ih => simp [ih, Nat.add_assoc]

/-- Whether a text comes no later than another one in the order of their code points. -/
def atMost : Text → Text → Bool
  | [], _ => true
  | _ :: _, [] => false
  | c :: left, d :: right => c.toNat < d.toNat || (c == d && atMost left right)

end Text

end Stencil
