import Stencil.Report.LineBreak
import Stencil.Text.Alphanumeric
import Stencil.Text.Width

/-!
# Wrapping

Prose is set into lines of a given width, each filled with as many words as fit. A word of letters
and digits is divided at its hyphens, and a word that is wider than a line is cut. Sequences that
steer the terminal take no part in this and stay where they are.
-/

namespace Stencil

/-- Whether a text ends in a hyphen or in a soft one. -/
def endsInHyphen (text : Text) : Bool := [some '-', some '\u00ad'].contains text.getLast?

/-- Join each piece that ends in a hyphen with the next one: words are divided at hyphens on their
own terms, and soft hyphens are not used. -/
def tieHyphens (pieces : List Text) : List Text :=
  pieces.foldr (fun piece rest =>
    match rest with
    | next :: more => if endsInHyphen piece then (piece ++ next) :: more else piece :: rest
    | [] => [piece]) []

/-- Join the last two of several pieces. -/
def joinLast : List Text → List Text
  | [] => []
  | [piece] => [piece]
  | [first, second] => [first ++ second]
  | piece :: rest => piece :: joinLast rest

/-- The pieces of a line without sequences. The last place to break is not used; mostly it is the
end of the line, but a line that ends in a hyphen has none there. -/
def piecesOf (line : Text) : List Text :=
  let pieces := tieHyphens (cutAtBreaks line)
  if endsInHyphen line then joinLast pieces else pieces

/-- Deal characters with their sequences out to the pieces that they belong to; `ending` follows the
last of them. -/
def dealOut (ending : Text) : List Text → List Text.Shown → List Text
  | [], _ => if ending.isEmpty then [] else [ending]
  | [_], shown => [shown.flatMap Text.Shown.text ++ ending]
  | piece :: rest, shown =>
    (shown.take piece.length).flatMap Text.Shown.text ::
      dealOut ending rest (shown.drop piece.length)

/-- The pieces of a line, with its sequences. -/
def linePieces (line : Text) : List Text :=
  let (shown, ending) := Text.takeApart [] 0 line
  dealOut ending (piecesOf (shown.map Text.Shown.char)) shown

/-- A word with the spaces behind it, which are dropped where a line ends. -/
structure Word where
  text : Text
  spaces : Nat
  deriving DecidableEq, Repr

namespace Word

open Text

/-- A piece of a line as a word. -/
def ofPiece (piece : Text) : Word :=
  let text := trimEnd (· == ' ') piece
  ⟨text, piece.length - text.length⟩

/-- The word with its spaces. -/
def all (word : Word) : Text := word.text ++ List.replicate word.spaces ' '

/-- Cut behind the hyphens that stand between letters or digits; `current` is reversed. -/
def hyphenated (current : Text) : Text → List Text
  | [] => [current.reverse]
  | '-' :: c :: rest =>
    if (current.head?.any isAlphanumeric) && isAlphanumeric c then
      ('-' :: current).reverse :: hyphenated [] (c :: rest)
    else hyphenated ('-' :: current) (c :: rest)
  | c :: rest => hyphenated (c :: current) rest

/-- Cut into parts that are no wider than `limit`, or a single character. `current` is the part at
hand, reversed, and `used` its columns; `ending` follows the last part. -/
def parts (limit : Nat) (ending current : Text) (used : Nat) : List Shown → List Text
  | [] => [current.reverse ++ ending]
  | shown :: rest =>
    let columns := charWidth shown.char
    if used > 0 && used + columns > limit then
      (current.reverse ++ shown.sequences) :: parts limit ending [shown.char] columns rest
    else parts limit ending (shown.text.reverse ++ current) (used + columns) rest

/-- A word's text as parts that fit into a line. -/
def fitting (limit : Nat) (text : Text) : List Text :=
  if width text > limit then
    let (shown, ending) := takeApart [] 0 text
    parts limit ending [] 0 shown
  else [text]

/-- Several texts as words that follow each other, the last of which has spaces behind it. -/
def ofParts (spaces : Nat) : List Text → List Word
  | [] => []
  | [text] => [⟨text, spaces⟩]
  | text :: rest => ⟨text, 0⟩ :: ofParts spaces rest

/-- The words that a line is set from. -/
def ofLine (limit : Nat) (line : Text) : List Word :=
  ((linePieces line).map ofPiece).flatMap fun word =>
    ofParts word.spaces ((hyphenated [] word.text).flatMap (fitting limit))

/-- The text of a line of words, without the spaces at its end. -/
def lineText : List Word → Text
  | [] => []
  | [word] => word.text
  | word :: rest => word.all ++ lineText rest

/-- Fill lines with words; `line` holds the words of the line at hand, and `used` its columns. -/
def fill (limit : Nat) (line : List Word) (used : Nat) : List Word → List Text
  | [] => [lineText line]
  | word :: rest =>
    let columns := width word.text
    if used + columns > limit && !line.isEmpty then
      lineText line :: fill limit [word] (columns + word.spaces) rest
    else fill limit (line ++ [word]) (used + columns + word.spaces) rest

end Word

/-- Set a text into lines of at most `limit` columns; its own lines stay apart. -/
def wrapText (limit : Nat) (text : Text) : List Text :=
  text.pieces.flatMap fun line => Word.fill limit [] 0 (Word.ofLine limit line)

end Stencil
