import Stencil.Text.Basic

/-!
# Tokens of a marker

The visible content of a comment is cut into tokens by longest match. Every character belongs to
exactly one token, so the texts of the tokens put together are the content again. A character that
begins no token is a token of its own, and a quote that is never closed takes the rest.
-/

namespace Stencil

/-- A token of a comment's content. -/
inductive Token where
  /-- The two characters that open a closing tag. -/
  | closingAngle
  /-- The character that opens a tag. -/
  | openAngle
  /-- The two characters that end an empty tag. -/
  | emptyEnd
  /-- The character that ends a tag. -/
  | closeAngle
  /-- The sign between an attribute's name and its value. -/
  | equals
  /-- A run of whitespace. -/
  | space (run : Text)
  | name (text : Text)
  /-- A text between two of the same quotation mark. -/
  | quoted (mark : Char) (text : Text)
  /-- Anything else. -/
  | stray (text : Text)
  deriving DecidableEq, Repr

namespace Token

/-- Whitespace between the parts of a tag: space, tab, carriage return and line feed. -/
def isSpace (c : Char) : Bool := c == ' ' || c == '\t' || c == '\r' || c == '\n'

/-- The characters that begin a name: ASCII letters, the underscore and the colon. -/
def isNameStart (c : Char) : Bool := c.isAlpha || c == '_' || c == ':'

/-- The characters that continue a name: also digits, the full stop and the hyphen. -/
def isNameRest (c : Char) : Bool := c.isAlphanum || c == '_' || c == '.' || c == ':' || c == '-'

/-- The characters that a token stands for. -/
def text : Token → Text
  | closingAngle => ['<', '/']
  | openAngle => ['<']
  | emptyEnd => ['/', '>']
  | closeAngle => ['>']
  | equals => ['=']
  | space run => run
  | name text => text
  | quoted mark text => mark :: text ++ [mark]
  | stray text => text

/-- The first token of a content that begins with `c`, and what follows the token. -/
def first (c : Char) (rest : Text) : Token × Text :=
  if c == '<' then
    match rest with
    | '/' :: rest => (closingAngle, rest)
    | rest => (openAngle, rest)
  else if c == '/' then
    match rest with
    | '>' :: rest => (emptyEnd, rest)
    | rest => (stray [c], rest)
  else if c == '>' then (closeAngle, rest)
  else if c == '=' then (equals, rest)
  else if isSpace c then (space (c :: rest.takeWhile isSpace), rest.dropWhile isSpace)
  else if isNameStart c then (name (c :: rest.takeWhile isNameRest), rest.dropWhile isNameRest)
  else if c == '"' || c == '\'' then
    match rest.dropWhile (· != c) with
    | [] => (stray (c :: rest), [])
    | _ :: after => (quoted c (rest.takeWhile (· != c)), after)
  else (stray [c], rest)

/-- A token and what follows it make up the content. -/
theorem first_text (c : Char) (rest : Text) :
    (first c rest).1.text ++ (first c rest).2 = c :: rest := by
  unfold first
  split
  · next h => split <;> simp [text, eq_of_beq h]
  split
  · next h => split <;> simp [text, eq_of_beq h]
  split
  · next h => simp [text, eq_of_beq h]
  split
  · next h => simp [text, eq_of_beq h]
  split
  · simp [text]
  split
  · simp [text]
  split
  · split
    · simp [text]
    · next mark after h =>
      have hmark : mark = c := by
        have := List.head_dropWhile_not (p := fun x => x != c) (l := rest) (by simp [h])
        simpa [h] using this
      have := List.takeWhile_append_dropWhile (p := fun x => x != c) (l := rest)
      rw [h, hmark] at this
      simpa [text] using this
  · simp [text]

theorem first_length (c : Char) (rest : Text) : (first c rest).2.length < (c :: rest).length := by
  have hlen := congrArg List.length (first_text c rest)
  have hpos : 0 < (first c rest).1.text.length := by
    unfold first
    repeat' split
    all_goals simp [text]
  simp only [List.length_append] at hlen
  omega

/-- The tokens of a content. -/
def lex : Text → List Token
  | [] => []
  | c :: rest => (first c rest).1 :: lex (first c rest).2
  termination_by content => content.length
  decreasing_by exact first_length c rest

/-- No character is lost or made up: the tokens spell the content. -/
theorem flatMap_text_lex (content : Text) : (lex content).flatMap text = content := by
  fun_induction lex content with
  | case1 => rfl
  | case2 c rest ih => rw [List.flatMap_cons, ih, first_text]

end Token

end Stencil
