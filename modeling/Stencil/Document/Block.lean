import Stencil.Comment.Range
import Stencil.Error
import Stencil.Text.LineTable

/-!
# Locating blocks

A block is opened by the first comment, of either style, that is an opening tag or a faulty one,
and closed by the next comment of the same style that is a closing tag. Markers take their
indentation and the rest of their line with them when nothing else stands there.
-/

namespace Stencil

/-- A block of a document, by the ranges of its parts. -/
structure Block where
  style : Style
  attributes : Attributes
  /-- The opening comment, with its indentation. -/
  opening : Span
  body : Span
  /-- The closing comment, with its indentation. -/
  closing : Span
  /-- Where the text after the block begins. -/
  resume : Nat
  deriving DecidableEq, Repr

namespace Block

open Text

/-- A comment that opens a block, or would if its tag were well formed. -/
structure Candidate where
  comment : Comment
  attributes : Except MarkerError Attributes

/-- What a comment is as an opening of a block for `tag`. -/
def Candidate.of? (tag : Text) (comment : Comment) : Option Candidate :=
  match Marker.read tag comment.text with
  | .ok (some (.opening attributes)) => some ⟨comment, .ok attributes⟩
  | .ok _ => none
  | .error fault => some ⟨comment, .error fault⟩

/-- The first candidate among the comments of one style. -/
def firstCandidate (text tag : Text) (start : Nat) (style : Style) : Option Candidate :=
  (Comment.scan text start style).findSome? (Candidate.of? tag)

/-- The earlier of two candidates; none is later than any. -/
def earlier : Option Candidate → Option Candidate → Option Candidate
  | some line, some block => if block.comment.start < line.comment.start then block else line
  | some line, none => some line
  | none, block => block

/-- Whether a comment closes a block for `tag`. -/
def isClosing (tag : Text) (comment : Comment) : Bool :=
  match Marker.read tag comment.text with
  | .ok (some .closing) => true
  | _ => false

/--
The position from which a marker comment counts: the start of its line, or `floor` if that is
later, when only blanks stand in between; otherwise the comment itself.
-/
def indentStart (text : Text) (lines : LineTable) (floor start : Nat) : Nat :=
  let lineStart := max (lines.lineStart start) floor
  if lineStart ≤ start ∧ (text.slice ⟨lineStart, start⟩).all isBlank then lineStart else start

/-- How many characters after a marker still belong to it: blanks up to and with the line's end. -/
def lineRest (rest : Text) : Nat :=
  let blanks := (rest.takeWhile isBlank).length
  match rest.drop blanks with
  | [] => blanks
  | '\n' :: _ => blanks + 1
  | '\r' :: '\n' :: _ => blanks + 2
  | _ => 0

/-- The position at which the text after a marker comment begins. -/
def afterMarker (text : Text) (stop : Nat) : Nat := stop + lineRest (text.drop stop)

/--
The first block at or after the position `start`. Indentation is not looked for before `floor`,
which is `start` except when scanning starts inside a character.
-/
def locateFrom (text tag : Text) (lines : LineTable) (floor start : Nat) :
    Except Error (Option Block) :=
  let line := firstCandidate text tag start .line
  let block := firstCandidate text tag start .block
  match earlier line block with
  | none => .ok none
  | some ⟨opening, attributes⟩ =>
    let number := lines.line opening.start
    match attributes with
    | .error reason => .error (.invalidMarker tag number reason)
    | .ok attributes =>
      match (Comment.scan text opening.stop opening.style).find? (isClosing tag) with
      | none => .error (.unclosedBlock tag number)
      | some closing =>
        let bodyStart := afterMarker text opening.stop
        let closingStart := indentStart text lines bodyStart closing.start
        .ok <| some
          { style := opening.style
            attributes
            opening := ⟨indentStart text lines floor opening.start, opening.stop⟩
            body := ⟨bodyStart, closingStart⟩
            closing := ⟨closingStart, closing.stop⟩
            resume := afterMarker text closing.stop }

theorem firstCandidate_mem {text tag : Text} {start : Nat} {style : Style} {found : Candidate}
    (h : firstCandidate text tag start style = some found) :
    found.comment ∈ Comment.scan text start style := by
  obtain ⟨comment, hmem, hof⟩ := List.exists_of_findSome?_eq_some h
  unfold Candidate.of? at hof
  split at hof
  · obtain rfl := Option.some.inj hof; exact hmem
  · exact absurd hof (by simp)
  · obtain rfl := Option.some.inj hof; exact hmem

theorem earlier_eq_some {line block : Option Candidate} {found : Candidate}
    (h : earlier line block = some found) : line = some found ∨ block = some found := by
  unfold earlier at h
  split at h
  · split at h
    · exact Or.inr h
    · exact Or.inl h
  · exact Or.inl h
  · exact Or.inr h

theorem lineRest_le (rest : Text) : lineRest rest ≤ rest.length := by
  have hsplit := congrArg List.length (List.takeWhile_append_dropWhile (p := isBlank) (l := rest))
  have hbehind := List.length_drop (i := (rest.takeWhile isBlank).length) (l := rest)
  rw [List.length_append] at hsplit
  unfold lineRest
  simp only
  split
  · omega
  · next h =>
    rw [h, List.length_cons] at hbehind
    omega
  · next h =>
    rw [h, List.length_cons, List.length_cons] at hbehind
    omega
  · omega

/-- The text after a block begins later than the search for it, and inside the document. -/
theorem locateFrom_resume {text tag : Text} {lines : LineTable} {floor start : Nat} {block : Block}
    (hstart : start ≤ text.length)
    (h : locateFrom text tag lines floor start = .ok (some block)) :
    start < block.resume ∧ block.resume ≤ text.length := by
  unfold locateFrom at h
  simp only at h
  split at h
  · exact absurd h (by simp)
  · next opening attributes hfirst =>
    split at h
    · exact absurd h (by simp)
    · split at h
      · exact absurd h (by simp)
      · next closing hclosing =>
        simp only [Except.ok.injEq, Option.some.injEq] at h
        subst h
        have hopen : min start text.length ≤ opening.start ∧ opening.start + 2 ≤ opening.stop ∧
            opening.stop ≤ text.length := by
          rcases earlier_eq_some hfirst with hf | hf <;>
            exact Comment.scan_range (firstCandidate_mem hf)
        have hclose := Comment.scan_range (List.mem_of_find?_eq_some hclosing)
        have hrest := lineRest_le (text.drop closing.stop)
        simp only [List.length_drop] at hrest
        simp only [afterMarker]
        omega

/--
The first block at or after a byte offset. An offset may fall inside a character: comments are then
looked for behind the character, and no indentation reaches back in front of it.
-/
def locate (text tag : Text) (offset : Nat) : Except Error (Option Block) :=
  locateFrom text tag (LineTable.ofText text) (positionWithin offset text)
    (positionAfter offset text)

end Block

end Stencil
