import Stencil.Document.Block
import Stencil.Proofs.Comment.Parts
import Stencil.Proofs.Text.Offset

/-!
# Marker lines

A marker comment takes the blanks in front of it along, if they reach back to the start of its line
or to the text that is already read, and also the rest of its line if nothing but blanks stands
there. What is taken can be read off a text, and it is what was written around the comment.
-/

namespace Stencil

open Text

/-- A character of several bytes is not blank. -/
theorem Text.isBlank_of_size {c : Char} (h : 1 < c.utf8Size) : isBlank c = false := by
  rw [← Bool.not_eq_true]
  intro hblank
  simp only [isBlank, Bool.or_eq_true, beq_iff_eq] at hblank
  rcases hblank with rfl | rfl <;> exact absurd h (by decide)

/-- What follows a marker comment and still belongs to it: nothing, or blanks up to and with the
end of the line or of the document. -/
def EndsMarker (ending rest : Text) : Prop :=
  ending = [] ∨ ∃ blanks : Text, (∀ c ∈ blanks, isBlank c = true) ∧
    (ending = blanks ++ ['\n'] ∨ ending = blanks ++ ['\r', '\n'] ∨ ending = blanks ∧ rest = [])

/-- A marker comment with what belongs to it. -/
structure MarkerLine where
  indent : Text
  comment : Comment.Parts
  ending : Text

namespace MarkerLine

/-- The marker and everything that belongs to it. -/
def text (line : MarkerLine) : Text := line.indent ++ line.comment.text ++ line.ending

/-- The line marks something in a document that goes on with `rest`: its comment is one whole
comment of a style, whose content is read as a marker. -/
structure Marks (line : MarkerLine) (tag : Text) (style : Style) (marker : Marker) (rest : Text) :
    Prop where
  blanks : ∀ c ∈ line.indent, isBlank c = true
  whole : line.comment.IsWhole
  style_eq : line.comment.style = style
  read_eq : Marker.read tag line.comment.content = .ok (some marker)
  ends : EndsMarker line.ending rest

theorem length_text (line : MarkerLine) :
    line.text.length = line.indent.length + line.comment.text.length + line.ending.length := by
  simp only [text, List.length_append]

end MarkerLine

/-- The block of two marker lines and the body between them, written one after the other. -/
def Block.writtenAt (start : Nat) (attributes : Attributes) (opening : MarkerLine) (body : Text)
    (closing : MarkerLine) : Block :=
  let bodyStart := start + opening.text.length
  let closingStart := bodyStart + body.length
  { style := opening.comment.style
    attributes
    opening := ⟨start, start + opening.indent.length + opening.comment.text.length⟩
    body := ⟨bodyStart, closingStart⟩
    closing := ⟨closingStart, closingStart + closing.indent.length + closing.comment.text.length⟩
    resume := closingStart + closing.text.length }

namespace Block

/-- The body of a written block is what stands between its marker lines. -/
theorem slice_body_writtenAt (before rest : Text) (attributes : Attributes) (opening : MarkerLine)
    (body : Text) (closing : MarkerLine) :
    (before ++ opening.text ++ body ++ closing.text ++ rest).slice
      (writtenAt before.length attributes opening body closing).body = body := by
  rw [List.append_assoc _ closing.text]
  simpa only [writtenAt, List.length_append] using
    slice_append (before ++ opening.text) body (closing.text ++ rest)

/-- The text behind a written block is what follows its closing line. -/
theorem drop_resume_writtenAt (before rest : Text) (attributes : Attributes) (opening : MarkerLine)
    (body : Text) (closing : MarkerLine) :
    (before ++ opening.text ++ body ++ closing.text ++ rest).drop
      (writtenAt before.length attributes opening body closing).resume = rest := by
  have hdrop : (before ++ opening.text ++ body ++ closing.text ++ rest).drop
      (before ++ opening.text ++ body ++ closing.text).length = rest := List.drop_left
  simpa only [writtenAt, List.length_append] using hdrop

/-! ## The rest of a marker's line -/

theorem slash_not_mem_of_endsMarker {ending rest : Text} (h : EndsMarker ending rest) :
    '/' ∉ ending := by
  rcases h with rfl | ⟨blanks, hblanks, h⟩
  · exact List.not_mem_nil
  · have hslash : '/' ∉ blanks := not_mem_of_forall '/' hblanks (by decide)
    rcases h with rfl | rfl | ⟨rfl, -⟩
    · simpa using hslash
    · simpa using hslash
    · exact hslash

/-- A comment behind a marker stands behind the rest of the marker's line. -/
theorem exists_behind_markerLine {front after before rest : Text} {line : MarkerLine}
    {parts : Comment.Parts} (htext : front ++ line.text ++ after = before ++ parts.text ++ rest)
    (hends : EndsMarker line.ending after) (hparts : parts.IsWhole)
    (hle : (front ++ line.indent ++ line.comment.text).length ≤ before.length) :
    ∃ gap, before = front ++ line.text ++ gap ∧ after = gap ++ (parts.text ++ rest) := by
  obtain ⟨more, hmore⟩ := hparts.exists_slash
  have hboth : front ++ line.indent ++ line.comment.text ++ (line.ending ++ after) =
      before ++ (parts.text ++ rest) := by
    rw [← List.append_assoc before, ← htext]
    simp only [MarkerLine.text, List.append_assoc]
  obtain ⟨inner, rfl, hinner⟩ := exists_between hboth hle
  -- The comment begins with a slash, and there is none in the rest of the marker's line.
  have hslash : line.ending ++ after = inner ++ '/' :: (more ++ rest) := by
    rw [hinner, hmore, List.cons_append]
  have hending := length_le_of_not_mem hslash (slash_not_mem_of_endsMarker hends)
  obtain ⟨gap, rfl, hafter⟩ := exists_between hinner hending
  exact ⟨gap, by simp only [MarkerLine.text, List.append_assoc], hafter⟩

/-- A line break behind blanks ends the line of a marker. -/
theorem lineRest_append {blanks feed : Text} (rest : Text) (hblanks : ∀ c ∈ blanks, isBlank c = true)
    (hfeed : feed = ['\n'] ∨ feed = ['\r', '\n']) :
    lineRest (blanks ++ feed ++ rest) = blanks.length + feed.length := by
  have hstop : ∀ c ∈ (feed ++ rest).head?, isBlank c = false := by
    rcases hfeed with rfl | rfl <;> simp <;> decide
  rw [lineRest, List.append_assoc, takeWhile_run hblanks hstop, List.drop_left]
  rcases hfeed with rfl | rfl <;> rfl

/-- What a marker takes of the text behind it belongs to it. -/
theorem exists_endsMarker (rest : Text) :
    ∃ ending after, rest = ending ++ after ∧ ending.length = lineRest rest ∧
      EndsMarker ending after := by
  have hsplit := List.takeWhile_append_dropWhile (p := isBlank) (l := rest)
  have hblanks : ∀ c ∈ rest.takeWhile isBlank, isBlank c = true :=
    fun c hc => List.mem_takeWhile_imp hc
  have hdrop : rest.drop (rest.takeWhile isBlank).length = rest.dropWhile isBlank :=
    drop_of_eq_append hsplit.symm
  rw [lineRest, hdrop]
  generalize rest.takeWhile isBlank = blanks at *
  generalize rest.dropWhile isBlank = after at *
  subst hsplit
  split
  · exact ⟨blanks, [], rfl, rfl, Or.inr ⟨blanks, hblanks, Or.inr (Or.inr ⟨rfl, rfl⟩)⟩⟩
  · next after =>
    exact ⟨blanks ++ ['\n'], after, by simp, by simp, Or.inr ⟨blanks, hblanks, Or.inl rfl⟩⟩
  · next after =>
    exact ⟨blanks ++ ['\r', '\n'], after, by simp, by simp,
      Or.inr ⟨blanks, hblanks, Or.inr (Or.inl rfl)⟩⟩
  · exact ⟨[], blanks ++ after, rfl, rfl, Or.inl rfl⟩

/-! ## The indentation of a marker -/

/-- The blanks `indent`, behind the text `front`, are what a marker takes of the text in front of it
when all up to `floor` is read already. -/
def TakesBack (text : Text) (floor : Nat) (front indent : Text) : Prop :=
  front.length = indentStart text (LineTable.ofText text) floor (front ++ indent).length

/-- What a marker takes of the text in front of it is blank and was not read before. -/
theorem exists_indent {text : Text} (lines : LineTable) {floor start : Nat}
    (hfloor : floor ≤ start) (hstart : start ≤ text.length) :
    ∃ before indent rest, text = before ++ indent ++ rest ∧
      before.length = indentStart text lines floor start ∧
      before.length + indent.length = start ∧ floor ≤ before.length ∧
      ∀ c ∈ indent, isBlank c = true := by
  rw [indentStart]
  split
  · next h =>
    obtain ⟨hle, hblanks⟩ := h
    obtain ⟨before, rest, hsplit, hbefore, hstop⟩ := exists_eq_append_slice hle hstart
    refine ⟨before, _, rest, hsplit, hbefore, hstop, ?_, ?_⟩
    · rw [hbefore]
      exact Nat.le_max_right _ _
    · simpa using hblanks
  · refine ⟨text.take start, [], text.drop start, by simp, ?_, ?_, ?_, by simp⟩
    all_goals
      simp only [List.length_take, List.length_nil]
      omega

/-- A comment in a document stands in a line of its own making: with what it takes of the text in
front of it and of the text behind it. -/
theorem exists_markerLine {text before rest : Text} {parts : Comment.Parts} (lines : LineTable)
    {floor : Nat} (htext : text = before ++ parts.text ++ rest) (hfloor : floor ≤ before.length) :
    ∃ (front : Text) (line : MarkerLine) (after : Text), line.comment = parts ∧
      before = front ++ line.indent ∧ rest = line.ending ++ after ∧
      front.length = indentStart text lines floor before.length ∧
      afterMarker text (before.length + parts.text.length) = front.length + line.text.length ∧
      floor ≤ front.length ∧ (∀ c ∈ line.indent, isBlank c = true) ∧
      EndsMarker line.ending after := by
  have hlen := congrArg List.length htext
  simp only [List.length_append] at hlen
  obtain ⟨front, indent, behind, hsplit, hfront, hindent, hle, hblanks⟩ :=
    @exists_indent text lines _ _ hfloor (by omega)
  obtain ⟨ending, after, hrest, hending, hends⟩ := exists_endsMarker rest
  have hbefore : front ++ indent = before := by
    have happend : front ++ indent ++ behind = before ++ (parts.text ++ rest) := by
      rw [← hsplit, htext, List.append_assoc]
    exact (List.append_inj happend (by rw [List.length_append]; exact hindent)).1
  refine ⟨front, ⟨indent, parts, ending⟩, after, rfl, hbefore.symm, hrest, hfront, ?_, hle,
    hblanks, hends⟩
  have hdrop : text.drop (before.length + parts.text.length) = rest := by
    rw [← List.length_append]
    exact drop_of_eq_append htext
  rw [afterMarker, hdrop, ← hending, MarkerLine.length_text]
  simp only
  omega

/-- Blanks at the start of a line are the indentation of the marker behind them. -/
theorem indentStart_append {whole indent : Text} (rest : Text) {floor : Nat}
    (hwhole : EndsIn '\n' whole) (hindent : ∀ c ∈ indent, isBlank c = true)
    (hfloor : floor ≤ whole.length) :
    indentStart (whole ++ indent ++ rest) (LineTable.ofText (whole ++ indent ++ rest)) floor
      (whole.length + indent.length) = whole.length := by
  have hfeed : '\n' ∉ indent := fun hmem => absurd (hindent '\n' hmem) (by decide)
  have hline : (LineTable.ofText (whole ++ indent ++ rest)).lineStart
      (whole.length + indent.length) = whole.length :=
    LineTable.lineStart_append rest hwhole hfeed
  rw [indentStart, hline, Nat.max_eq_left hfloor]
  refine if_pos ⟨Nat.le_add_right _ _, ?_⟩
  rw [slice_append, List.all_eq_true]
  exact hindent

end Block

end Stencil
