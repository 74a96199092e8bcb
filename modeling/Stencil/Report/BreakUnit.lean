import Stencil.Report.BreakClass
import Stencil.Text.EastAsian

/-!
# Units of a line

The parts of a line that no break divides: a character together with the marks that combine with it,
or a run of a script that is written without spaces. The units are all of the text, in order.
-/

namespace Stencil

/-- The scripts that are written without spaces. -/
inductive ComplexScript where
  | thai
  | lao
  | myanmar
  | khmer
  | other
  deriving DecidableEq, Repr

/-- The script of a character of the class `complexContext`. -/
def ComplexScript.ofChar (c : Char) : ComplexScript :=
  if '\u0e00' ≤ c && c ≤ '\u0e7f' then thai
  else if '\u0e80' ≤ c && c ≤ '\u0eff' then lao
  else if '\u1000' ≤ c && c ≤ '\u109f' || '\ua9e0' ≤ c && c ≤ '\ua9ff' ||
      '\uaa60' ≤ c && c ≤ '\uaa7f' then myanmar
  else if '\u1780' ≤ c && c ≤ '\u17ff' then khmer
  else other

/-- Put an element into the group in front of which it stands, if it is joined to that group's first
element, or into a group of its own. -/
def joinGroup {α : Type} (joined : α → α → Bool) (a : α) : List (List α) → List (List α)
  | (b :: group) :: rest =>
    if joined a b then (a :: b :: group) :: rest else [a] :: (b :: group) :: rest
  | groups => [a] :: groups

/-- The elements of a list in groups, in which every two neighbours are joined. -/
def groupNeighbours {α : Type} (joined : α → α → Bool) (elements : List α) : List (List α) :=
  elements.foldr (joinGroup joined) []

/-- The groups are all of the list, in order. -/
theorem flatten_groupNeighbours {α : Type} (joined : α → α → Bool) (elements : List α) :
    (groupNeighbours joined elements).flatten = elements := by
  have put (a : α) (groups : List (List α)) :
      (joinGroup joined a groups).flatten = a :: groups.flatten := by
    unfold joinGroup
    split
    · split <;> simp
    · simp
  induction elements with
  | nil => rfl
  | cons a rest ih => rw [groupNeighbours, List.foldr_cons, put, ← groupNeighbours, ih]

/-- A character with its class. -/
structure Classified where
  char : Char
  kind : BreakClass
  deriving DecidableEq, Repr

namespace Classified

open BreakClass

/-- Whether a character is a letter or mark of a script without spaces. -/
def isComplex (c : Classified) : Bool := c.kind = complexContext

/-- Whether a character is a mark. -/
def isMark (c : Classified) : Bool := [combining, zeroWidthJoiner].contains c.kind

/-- Whether no mark combines with a character. -/
def isBare (c : Classified) : Bool :=
  [lineEnd, carriageReturn, lineFeed, space, zeroWidthSpace].contains c.kind

/-- Whether two neighbours are part of one unit, or of a run and the marks behind it. -/
def joined (left right : Classified) : Bool :=
  (left.isComplex && right.isComplex) || (right.isMark && !left.isBare)

/-- Whether two characters belong to the same script without spaces. -/
def sameScript (left right : Classified) : Bool :=
  ComplexScript.ofChar left.char = ComplexScript.ofChar right.char

/-- The characters of a text with their classes. -/
def ofText (text : Text) : List Classified := text.map fun c => ⟨c, ofChar c⟩

/-- The characters without their classes. -/
def text (classified : List Classified) : Text := classified.map Classified.char

@[simp] theorem text_ofText (text : Text) : Classified.text (ofText text) = text := by
  simp [Classified.text, ofText, Function.comp_def]

@[simp] theorem text_append (left right : List Classified) :
    Classified.text (left ++ right) = Classified.text left ++ Classified.text right := by
  simp [Classified.text]

end Classified

/-- A character together with the marks behind it, or a run of a script without spaces. -/
structure BreakUnit where
  /-- The character that the rules look at. -/
  base : Char
  kind : BreakClass
  text : Text
  /-- Whether it is a run, behind which a line may always be broken. -/
  run : Bool
  deriving DecidableEq, Repr

namespace BreakUnit

open BreakClass

/-- The unit of a character and its marks. A mark that has nothing to combine with is treated as a
letter, and so is a single character of a script without spaces. -/
def ofMarked (c : Classified) (marks : List Classified) : BreakUnit :=
  let text := c.char :: Classified.text marks
  if c.isMark then ⟨'A', letter, text, false⟩
  else if c.isComplex then ⟨c.char, letter, text, false⟩
  else ⟨c.char, c.kind, text, false⟩

/-- The unit of marks that follow a run. -/
def ofMarks : List Classified → List BreakUnit
  | [] => []
  | mark :: marks => [ofMarked mark marks]

/-- The unit of a run in one script. -/
def ofRun (run : List Classified) : BreakUnit :=
  let text := Classified.text run
  ⟨text.headD ' ', letter, text, true⟩

/-- The units of neighbours that are joined. Several characters of scripts without spaces are runs,
one for each script, and marks behind them combine with nothing. -/
def ofJoined : List Classified → List BreakUnit
  | [] => []
  | c :: rest =>
    if c.isComplex && rest.head?.any Classified.isComplex then
      let run := (c :: rest).takeWhile Classified.isComplex
      let marks := (c :: rest).dropWhile Classified.isComplex
      (groupNeighbours Classified.sameScript run).map ofRun ++ ofMarks marks
    else [ofMarked c rest]

/-- The units of a text. -/
def ofText (text : Text) : List BreakUnit :=
  (groupNeighbours Classified.joined (Classified.ofText text)).flatMap ofJoined

@[simp] theorem text_ofMarked (c : Classified) (marks : List Classified) :
    (ofMarked c marks).text = c.char :: Classified.text marks := by
  unfold ofMarked
  split
  · rfl
  · split <;> rfl

@[simp] theorem flatMap_ofMarks (marks : List Classified) :
    (ofMarks marks).flatMap BreakUnit.text = Classified.text marks := by
  cases marks <;> simp [ofMarks, Classified.text]

@[simp] theorem flatMap_ofRun (runs : List (List Classified)) :
    (runs.map ofRun).flatMap BreakUnit.text = Classified.text runs.flatten := by
  induction runs with
  | nil => rfl
  | cons run rest ih => simp [ofRun, ih]

/-- Joined neighbours are all of their units, in order. -/
theorem flatMap_ofJoined (group : List Classified) :
    (ofJoined group).flatMap BreakUnit.text = Classified.text group := by
  cases group with
  | nil => rfl
  | cons c rest =>
    rw [ofJoined]
    split
    · rw [List.flatMap_append, flatMap_ofRun, flatMap_ofMarks, flatten_groupNeighbours,
        ← Classified.text_append, List.takeWhile_append_dropWhile]
    · simp [Classified.text]

/-- A text is all of its units, in order. -/
theorem flatMap_ofText (text : Text) : (ofText text).flatMap BreakUnit.text = text := by
  have whole (groups : List (List Classified)) :
      (groups.flatMap ofJoined).flatMap BreakUnit.text = Classified.text groups.flatten := by
    induction groups with
    | nil => rfl
    | cons group rest ih => simp [flatMap_ofJoined, ih]
  rw [ofText, whole, flatten_groupNeighbours, Classified.text_ofText]

/-- Whether a unit ends in a mark that joins it to the next one. -/
def joinsNext (piece : BreakUnit) : Bool := piece.text.getLast? = some '\u200d'

/-- Whether a unit belongs to one of some classes. -/
def isIn (kinds : List BreakClass) (piece : BreakUnit) : Bool := kinds.contains piece.kind

/-- Whether a unit is set in the grid of East Asian scripts. -/
def isEastAsian (piece : BreakUnit) : Bool := Text.isEastAsian piece.base

/-- Quotation marks that open a quotation. -/
def isInitialQuote (piece : BreakUnit) : Bool :=
  piece.kind = quotation &&
    ['«', '‘', '‛', '“', '‟', '‹', '⸂', '⸄', '⸉', '⸌', '⸜', '⸠'].contains piece.base

/-- Quotation marks that close a quotation. -/
def isFinalQuote (piece : BreakUnit) : Bool :=
  piece.kind = quotation &&
    ['»', '’', '”', '›', '⸃', '⸅', '⸊', '⸍', '⸝', '⸡'].contains piece.base

/-- A consonant that may take part in a stack; the dotted circle stands for any of them. -/
def isStackable (piece : BreakUnit) : Bool := piece.kind = aksara || piece.base = '◌'

/-- A consonant of a Brahmic script. -/
def isAksara (piece : BreakUnit) : Bool := piece.isStackable || piece.kind = aksaraStart

/-- The ranges of code points that are kept for pictures, in increasing order, both ends
included. -/
def reservedPictures : List (Nat × Nat) := [
  (0x1F02C, 0x1F02F), (0x1F094, 0x1F09F), (0x1F0AF, 0x1F0B0), (0x1F0C0, 0x1F0C0),
  (0x1F0D0, 0x1F0D0), (0x1F0F6, 0x1F0FF), (0x1F1AE, 0x1F1E5), (0x1F203, 0x1F20F),
  (0x1F23C, 0x1F23F), (0x1F249, 0x1F24F), (0x1F252, 0x1F25F), (0x1F266, 0x1F2FF),
  (0x1F6D9, 0x1F6DB), (0x1F6ED, 0x1F6EF), (0x1F6FD, 0x1F6FF), (0x1F7DA, 0x1F7DF),
  (0x1F7EC, 0x1F7EF), (0x1F7F1, 0x1F7FF), (0x1F80C, 0x1F80F), (0x1F848, 0x1F84F),
  (0x1F85A, 0x1F85F), (0x1F888, 0x1F88F), (0x1F8AE, 0x1F8AF), (0x1F8BC, 0x1F8BF),
  (0x1F8C2, 0x1F8CF), (0x1F8D9, 0x1F8FF), (0x1FA58, 0x1FA5F), (0x1FA6E, 0x1FA6F),
  (0x1FA7D, 0x1FA7F), (0x1FA8B, 0x1FA8D), (0x1FAC7, 0x1FAC7), (0x1FAC9, 0x1FACC),
  (0x1FADD, 0x1FADE), (0x1FAEB, 0x1FAEE), (0x1FAF9, 0x1FAFF), (0x1FC00, 0x1FFFD)
]

/-- Whether a unit is a picture that a tone may follow. -/
def takesTone (piece : BreakUnit) : Bool :=
  piece.kind = emojiBase || Text.inRanges reservedPictures piece.base.toNat

end BreakUnit

end Stencil
