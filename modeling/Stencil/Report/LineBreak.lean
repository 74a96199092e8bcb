import Stencil.Report.BreakUnit

/-!
# Places to break a line

A line of prose may be broken after spaces, and between some pairs of characters that no space
separates. The rules stand in an order, and the first one that applies to a place decides; where
none does, a break is allowed. Behind a run of a script without spaces a break is always allowed,
and what follows is read like a line of its own. The pieces between the places are all of the line,
in order.
-/

namespace Stencil

/-- A place between two units of a line. -/
structure Gap where
  /-- The units in front of `left`, the nearest first. -/
  earlier : List BreakUnit
  left : BreakUnit
  right : BreakUnit
  later : List BreakUnit

namespace Gap

open BreakClass

/-- The verdict of a rule that only forbids breaks. -/
def keepIf (p : Bool) : Option Bool := if p then some false else none

/-- The verdict of a rule that only allows breaks. -/
def breakIf (p : Bool) : Option Bool := if p then some true else none

/-- The units in front of the place without the spaces right there, the nearest first. -/
def beforeSpaces (gap : Gap) : List BreakUnit :=
  (gap.left :: gap.earlier).dropWhile fun piece => piece.kind = space

/-- Whether the nearest unit that is no space belongs to one of some classes. -/
def follows (kinds : List BreakClass) (gap : Gap) : Bool :=
  gap.beforeSpaces.head?.any (·.isIn kinds)

/-- Whether some units, the nearest first, end in a number, its points and slashes included. -/
def isNumber (units : List BreakUnit) : Bool :=
  (units.dropWhile (·.isIn [slash, separator])).head?.any (·.kind = number)

/-- The classes that end a word for certain. -/
def wordEnds : List BreakClass := [lineEnd, carriageReturn, lineFeed, space, zeroWidthSpace]

def letters : List BreakClass := [letter, hebrewLetter]

def pictures : List BreakClass := [ideograph, emojiBase, emojiTone]

def signs : List BreakClass := [beforeNumber, afterNumber]

def hyphens : List BreakClass := [hyphen, plainHyphen]

def hangul : List BreakClass :=
  [leadingJamo, vowelJamo, trailingJamo, openSyllable, closedSyllable]

/-- Lines end behind line ends, and a carriage return goes with its line feed. -/
def atLineEnds (gap : Gap) : Option Bool :=
  if gap.left.kind = carriageReturn then some (gap.right.kind != lineFeed)
  else if gap.left.isIn [lineEnd, lineFeed] then some true
  else keepIf (gap.right.isIn [lineEnd, carriageReturn, lineFeed])

/-- Spaces stay with what they follow, and an invisible space is a place to break. -/
def atSpaces (gap : Gap) : Option Bool :=
  if gap.right.isIn [space, zeroWidthSpace] then some false
  else if gap.follows [zeroWidthSpace] then some true
  else keepIf gap.left.joinsNext

/-- Joiners and glue tie their neighbours; a space or hyphen in front of glue may still end a
line. -/
def atGlue (gap : Gap) : Option Bool :=
  keepIf (gap.left.isIn [joiner, glue] || gap.right.kind = joiner ||
    (gap.right.kind = glue && !gap.left.isIn [space, breakAfter, hyphen, plainHyphen]))

/-- Brackets and quotation marks hold what they enclose, even across spaces. -/
def atEnclosures (gap : Gap) : Option Bool :=
  let afterOpeningQuote := match gap.beforeSpaces with
    | quote :: before => quote.isInitialQuote &&
        before.head?.all (·.isIn (wordEnds ++ [opening, quotation, glue]))
    | [] => false
  let atClosingQuote := gap.right.isFinalQuote && gap.later.head?.all (·.isIn (wordEnds ++
    [glue, joiner, closing, quotation, closingParenthesis, exclamation, separator, slash]))
  keepIf (gap.right.isIn [closing, closingParenthesis, exclamation, slash] ||
    gap.follows [opening] || afterOpeningQuote || atClosingQuote)

/-- A point behind a space begins a word if a digit follows it, and belongs to what is in front of
it otherwise. -/
def atSeparators (gap : Gap) : Option Bool :=
  if gap.right.kind = separator then
    some (gap.left.kind = space && gap.later.head?.any (·.kind = number))
  else none

/-- Some marks stay behind what they follow, even across spaces; all else may begin a line behind
spaces. -/
def afterSpaces (gap : Gap) : Option Bool :=
  if gap.follows [closing, closingParenthesis] && gap.right.kind = nonstarter then some false
  else if gap.follows [breakAround] && gap.right.kind = breakAround then some false
  else breakIf (gap.left.kind = space)

/-- Quotation marks are tied to their neighbours, unless both sides are East Asian script and the
mark tells which side it belongs to. -/
def atQuotations (gap : Gap) : Option Bool :=
  let ahead := gap.right.kind = quotation && (!gap.right.isInitialQuote ||
    !gap.left.isEastAsian || gap.later.head?.all (!·.isEastAsian))
  let behind := gap.left.kind = quotation && (!gap.left.isFinalQuote ||
    !gap.right.isEastAsian || gap.earlier.head?.all (!·.isEastAsian))
  keepIf (ahead || behind)

/-- An object may stand on a line of its own. -/
def atObjects (gap : Gap) : Option Bool :=
  breakIf (gap.left.kind = contingent || gap.right.kind = contingent)

/-- A hyphen is tied to the word in front of it, and one that begins a word to the word behind
it. -/
def atHyphens (gap : Gap) : Option Bool :=
  let beginsWord := gap.left.isIn hyphens && gap.right.isIn letters &&
    gap.earlier.head?.all (·.isIn (wordEnds ++ [contingent, glue]))
  let afterHebrew := gap.left.isIn hyphens && gap.right.kind != hebrewLetter &&
    gap.earlier.head?.any (·.kind = hebrewLetter)
  keepIf (beginsWord || gap.right.isIn (hyphens ++ [breakAfter, nonstarter]) ||
    gap.left.kind = breakBefore || afterHebrew)

/-- Rows of dots follow what is in front of them, and Hebrew words may hold slashes. -/
def atSigns (gap : Gap) : Option Bool :=
  keepIf (gap.right.kind = leader || (gap.left.kind = slash && gap.right.kind = hebrewLetter))

/-- Letters, digits and the signs of numbers that stand side by side are one word. -/
def inWords (gap : Gap) : Option Bool :=
  let left := gap.left
  let right := gap.right
  keepIf ((left.isIn letters && right.isIn (number :: letters ++ signs)) ||
    (left.isIn (number :: signs) && right.isIn letters) ||
    (left.kind = beforeNumber && right.isIn pictures) ||
    (left.isIn pictures && right.kind = afterNumber) ||
    (left.kind = separator && right.isIn letters))

/-- A number is kept together with its signs and brackets. -/
def inNumbers (gap : Gap) : Option Bool :=
  let numberBehind := match gap.later with
    | next :: rest => next.kind = number ||
        (next.kind = separator && rest.head?.any (·.kind = number))
    | [] => false
  let signBehind := gap.right.isIn signs && (isNumber (gap.left :: gap.earlier) ||
    (gap.left.isIn [closing, closingParenthesis] && isNumber gap.earlier))
  let signAhead := gap.left.isIn signs &&
    (gap.right.kind = number || (gap.right.kind = opening && numberBehind))
  let digits := gap.right.kind = number &&
    (gap.left.isIn [hyphen, separator] || isNumber (gap.left :: gap.earlier))
  keepIf (signBehind || signAhead || digits)

/-- The letters of a syllable of Hangul stay together, and so do a syllable and its signs. -/
def inHangul (gap : Gap) : Option Bool :=
  let left := gap.left
  let right := gap.right
  keepIf ((left.kind = leadingJamo &&
      right.isIn [leadingJamo, vowelJamo, openSyllable, closedSyllable]) ||
    (left.isIn [vowelJamo, openSyllable] && right.isIn [vowelJamo, trailingJamo]) ||
    (left.isIn [trailingJamo, closedSyllable] && right.kind = trailingJamo) ||
    (left.isIn hangul && right.kind = afterNumber) ||
    (left.kind = beforeNumber && right.isIn hangul))

/-- The parts of a syllable of a Brahmic script stay together. -/
def inAksaras (gap : Gap) : Option Bool :=
  let left := gap.left
  let right := gap.right
  keepIf ((left.kind = aksaraPrebase && right.isAksara) ||
    (left.isAksara && right.isIn [finalVirama, virama]) ||
    (left.kind = virama && right.isStackable && gap.earlier.head?.any (·.isAksara)) ||
    (left.isAksara && right.isAksara && gap.later.head?.any (·.kind = finalVirama)))

/-- Brackets that are not East Asian are tied to the words beside them. -/
def atParentheses (gap : Gap) : Option Bool :=
  let word := number :: letters
  keepIf ((gap.left.isIn word && gap.right.kind = opening && !gap.right.isEastAsian) ||
    (gap.left.kind = closingParenthesis && !gap.left.isEastAsian && gap.right.isIn word))

/-- Flags are pairs of letters, and tones belong to the picture in front of them. -/
def inPictures (gap : Gap) : Option Bool :=
  let indicators := (gap.left :: gap.earlier).takeWhile (·.kind = regionalIndicator)
  keepIf ((gap.right.kind = regionalIndicator && indicators.length % 2 = 1) ||
    (gap.right.kind = emojiTone && gap.left.takesTone))

/-- The rules, the first of which that applies decides. -/
def rules : List (Gap → Option Bool) :=
  [atLineEnds, atSpaces, atGlue, atEnclosures, atSeparators, afterSpaces, atQuotations, atObjects,
    atHyphens, atSigns, inWords, inNumbers, inHangul, inAksaras, atParentheses, inPictures]

/-- Whether a line may be broken at a place. -/
def mayBreak (gap : Gap) : Bool :=
  (rules.findSome? fun rule => rule gap).getD true

end Gap

/-- Cut units where a line may be broken. `current` is the reversed beginning of the piece at hand,
and `earlier` holds the units in front, the nearest first. -/
def cutUnits (earlier : List BreakUnit) (current : Text) : List BreakUnit → List Text
  | [] => if current.isEmpty then [] else [current.reverse]
  | [last] => [current.reverse ++ last.text]
  | left :: right :: later =>
    if left.run then
      (current.reverse ++ left.text) :: cutUnits [] [] (right :: later)
    else if Gap.mayBreak ⟨earlier, left, right, later⟩ then
      (current.reverse ++ left.text) :: cutUnits (left :: earlier) [] (right :: later)
    else cutUnits (left :: earlier) (left.text.reverse ++ current) (right :: later)

/-- The pieces of a text between the places where a line may be broken. -/
def cutAtBreaks (text : Text) : List Text := cutUnits [] [] (BreakUnit.ofText text)

/-- The scripts without spaces that a text has runs of, one for each run. -/
def complexRuns (text : Text) : List ComplexScript :=
  ((BreakUnit.ofText text).filter BreakUnit.run).map fun piece => ComplexScript.ofChar piece.base

theorem flatten_cutUnits (earlier : List BreakUnit) (current : Text) (units : List BreakUnit) :
    (cutUnits earlier current units).flatten = current.reverse ++ units.flatMap BreakUnit.text := by
  induction units generalizing earlier current with
  | nil => cases current <;> simp [cutUnits]
  | cons left rest ih =>
    cases rest with
    | nil => simp [cutUnits]
    | cons right later =>
      unfold cutUnits
      split
      · simp [ih]
      · split <;> simp [ih]

/-- The pieces are all of the text, in order. -/
theorem flatten_cutAtBreaks (text : Text) : (cutAtBreaks text).flatten = text := by
  simp [cutAtBreaks, flatten_cutUnits, BreakUnit.flatMap_ofText]

end Stencil
