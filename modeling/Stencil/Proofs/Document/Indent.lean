import Stencil.Proofs.Document.Partition

/-!
# Indentation

Of the text in front of it a marker takes the blanks at the start of its line and no others. What
was read before is never taken, so where a marker stands on the line of an earlier one the line
begins, for the later marker, behind the earlier one: blanks directly between the two are taken
although they do not stand at the start of a line of the document. Everywhere else blanks behind
other text are kept.
-/

namespace Stencil

open Text

/-- The text ends with a comment that is read as a marker. -/
def EndsInMarker (tag text : Text) : Prop :=
  ∃ (front : Text) (parts : Comment.Parts) (marker : Marker), text = front ++ parts.text ∧
    parts.IsWhole ∧ Marker.read tag parts.content = .ok (some marker)

/-- The blanks `indent` are those that a marker takes of the text in front of it, and `kept` is what
it leaves of the text that is not read yet, behind the text `passed` that is. -/
structure TakesIndent (tag passed kept indent : Text) : Prop where
  blanks : ∀ c ∈ indent, isBlank c = true
  /-- What is taken stands at the start of a line of the document, or directly behind a marker. -/
  line_start : indent ≠ [] → EndsIn '\n' (passed ++ kept) ∨ kept = [] ∧ EndsInMarker tag passed
  /-- What is left is not blank from the start of a line on. -/
  all_taken : ∀ whole part, kept = whole ++ part → EndsIn '\n' whole →
    (∀ c ∈ part, isBlank c = true) → part = []

/-- A document behind the text `passed` is its segments in order, with the marker lines around each
body, and each marker takes its indentation of the segment in front of it. -/
inductive Indented (tag : Text) : Text → Text → List Segment → Prop
  | plain (passed text : Text) : Indented tag passed text [.plain text]
  | tagged {passed before rest : Text} {opening closing : MarkerLine} {region : Region}
      {segments : List Segment}
      (hopening : opening.Marks tag region.style (.opening region.attributes)
        (region.body ++ closing.text ++ rest))
      (hclosing : closing.Marks tag region.style .closing rest)
      (hbefore : TakesIndent tag passed before opening.indent)
      (hbody : TakesIndent tag (passed ++ before ++ opening.text) region.body closing.indent)
      (hrest : Indented tag (passed ++ before ++ opening.text ++ region.body ++ closing.text) rest
        segments) :
      Indented tag passed (before ++ opening.text ++ region.body ++ closing.text ++ rest)
        (.plain before :: .tagged region :: segments)

namespace Block

/-- Indentation is looked for on the last line of what is not read yet, wherever that line begins in
the document. -/
theorem indentStart_passed {passed whole part : Text} (rest : Text) (hwhole : EndsIn '\n' whole)
    (hpart : '\n' ∉ part) :
    let text := passed ++ whole ++ part ++ rest
    indentStart text (LineTable.ofText text) passed.length (passed ++ whole ++ part).length =
      if part.all isBlank then (passed ++ whole).length else (passed ++ whole ++ part).length := by
  intro text
  have hline : max ((LineTable.ofText text).lineStart (passed ++ whole ++ part).length)
      passed.length = (passed ++ whole).length := by
    rcases hwhole.eq_nil_or_concat with rfl | ⟨front, rfl⟩
    · -- The line begins in what is read already, and so is looked at from the end of that.
      obtain ⟨lines, line, rfl, hlines, hline⟩ := exists_endsIn_append '\n' passed
      have hfeed : '\n' ∉ line ++ part := by simp [hline, hpart]
      have hstart : (LineTable.ofText text).lineStart (lines ++ line ++ [] ++ part).length =
          lines.length := by
        simpa only [text, LineTable.ofText, List.append_nil, List.append_assoc, List.length_append]
          using LineTable.lineStart_append rest hlines hfeed
      rw [hstart, List.append_nil]
      exact Nat.max_eq_right (List.prefix_append lines line).length_le
    · have hends : EndsIn '\n' (passed ++ (front ++ ['\n'])) := Or.inr (by simp)
      have hstart : (LineTable.ofText text).lineStart (passed ++ (front ++ ['\n']) ++ part).length =
          (passed ++ (front ++ ['\n'])).length := by
        simpa only [text, LineTable.ofText, List.length_append]
          using LineTable.lineStart_append rest hends hpart
      rw [hstart]
      exact Nat.max_eq_left (List.prefix_append passed _).length_le
  have hslice : text.slice ⟨(passed ++ whole).length, (passed ++ whole ++ part).length⟩ = part := by
    simpa only [List.length_append] using slice_append (passed ++ whole) part rest
  have hle : (passed ++ whole).length ≤ (passed ++ whole ++ part).length :=
    (List.prefix_append _ part).length_le
  rw [indentStart, hline]
  simp only [hslice, hle, true_and]

variable {passed kept indent rest : Text}

/-- Blanks that are taken stand at the start of a line of what is not read yet. -/
theorem TakesBack.endsIn
    (h : TakesBack (passed ++ kept ++ indent ++ rest) passed.length (passed ++ kept) indent)
    (hblanks : ∀ c ∈ indent, isBlank c = true) (hne : indent ≠ []) : EndsIn '\n' kept := by
  obtain ⟨whole, part, rfl, hwhole, hpart⟩ := exists_endsIn_append '\n' kept
  have hfeed : '\n' ∉ part ++ indent := by
    simp [hpart, not_mem_of_forall '\n' hblanks (by decide)]
  have hstart := @indentStart_passed passed whole (part ++ indent) rest hwhole hfeed
  have hlen := List.length_pos_iff.mpr hne
  simp only [TakesBack, ← List.append_assoc] at h hstart
  rw [hstart] at h
  split at h <;> simp only [List.length_append] at h
  · have hnil : part = [] := List.length_eq_zero_iff.mp (by omega)
    rwa [hnil, List.append_nil]
  · omega

/-- No blanks are left at the start of the line. -/
theorem TakesBack.eq_nil {whole part : Text}
    (h : TakesBack (passed ++ (whole ++ part) ++ indent ++ rest) passed.length
      (passed ++ (whole ++ part)) indent)
    (hblanks : ∀ c ∈ indent, isBlank c = true) (hwhole : EndsIn '\n' whole)
    (hpart : ∀ c ∈ part, isBlank c = true) : part = [] := by
  have hall : ∀ c ∈ part ++ indent, isBlank c = true := List.forall_mem_append.mpr ⟨hpart, hblanks⟩
  have hstart := @indentStart_passed passed whole (part ++ indent) rest hwhole
    (not_mem_of_forall '\n' hall (by decide))
  rw [if_pos (List.all_eq_true.mpr hall)] at hstart
  simp only [TakesBack, ← List.append_assoc] at h hstart
  rw [hstart] at h
  simp only [List.length_append] at h
  exact List.length_eq_zero_iff.mp (by omega)

end Block

/-- A marker line ends with a line feed, or with the comment itself, or with the document. -/
theorem MarkerLine.Marks.endsIn_or {line : MarkerLine} {tag rest : Text} {style : Style}
    {marker : Marker} (h : line.Marks tag style marker rest) (front : Text) :
    rest = [] ∨ EndsIn '\n' (front ++ line.text) ∨ EndsInMarker tag (front ++ line.text) := by
  have htext : front ++ line.text = front ++ line.indent ++ line.comment.text ++ line.ending := by
    simp only [MarkerLine.text, List.append_assoc]
  rw [htext]
  rcases h.ends with hending | ⟨blanks, -, hending | hending | ⟨-, hrest⟩⟩
  · rw [hending, List.append_nil]
    exact Or.inr (Or.inr ⟨_, _, _, rfl, h.whole, h.read_eq⟩)
  · exact Or.inr (Or.inl (Or.inr (by simp [hending])))
  · exact Or.inr (Or.inl (Or.inr (by simp [hending])))
  · exact Or.inl hrest

/-- What a marker takes back is its indentation, if a line or a marker ends what was read before. -/
theorem Block.TakesBack.takesIndent {tag text passed kept indent : Text}
    (h : TakesBack text passed.length (passed ++ kept) indent)
    (htext : passed ++ kept ++ indent <+: text) (hblanks : ∀ c ∈ indent, isBlank c = true)
    (hpassed : EndsIn '\n' passed ∨ EndsInMarker tag passed) :
    TakesIndent tag passed kept indent := by
  obtain ⟨rest, rfl⟩ := htext
  refine ⟨hblanks, fun hne => ?_, ?_⟩
  · rcases h.endsIn hblanks hne with rfl | hkept
    · rw [List.append_nil]
      exact hpassed.imp_right fun hmarker => ⟨rfl, hmarker⟩
    · exact Or.inl (Or.inr (by simp [List.getLast?_append, hkept]))
  · rintro whole part rfl hwhole hpart
    exact h.eq_nil hblanks hwhole hpart

/-- One step of the reading: behind a line or a marker, both markers of the located block take their
indentation of the segments in front of them. -/
theorem exists_takesIndent_of_locateFrom {text tag : Text} {start : Nat} {block : Block}
    (inside : start ≤ text.length)
    (hpassed : text.drop start = [] ∨ EndsIn '\n' (text.take start) ∨
      EndsInMarker tag (text.take start))
    (h : Block.locateFrom text tag (LineTable.ofText text) start start = .ok (some block)) :
    let region := Region.ofBlock text (LineTable.ofText text) block
    let before := text.slice ⟨start, block.opening.start⟩
    ∃ opening closing : MarkerLine,
      text.drop start =
        before ++ opening.text ++ region.body ++ closing.text ++ text.drop block.resume ∧
      opening.Marks tag region.style (.opening region.attributes)
        (region.body ++ closing.text ++ text.drop block.resume) ∧
      closing.Marks tag region.style .closing (text.drop block.resume) ∧
      TakesIndent tag (text.take start) before opening.indent ∧
      TakesIndent tag (text.take start ++ before ++ opening.text) region.body closing.indent := by
  intro region before
  obtain ⟨hlt, hresume⟩ := Block.locateFrom_resume inside h
  obtain ⟨opening, closing, hdrop, hopening, hclosing, -, htakes, htakes'⟩ :=
    exists_marks_of_locateFrom inside h
  have htext := List.take_append_drop start text
  rw [hdrop] at htext
  refine ⟨opening, closing, hdrop, hopening, hclosing, ?_, ?_⟩
  · apply Block.TakesBack.takesIndent
    · rwa [List.length_take_of_le inside]
    · refine ⟨opening.comment.text ++ opening.ending ++ region.body ++ closing.text ++
        text.drop block.resume, Eq.trans ?_ htext⟩
      simp only [region, before, MarkerLine.text, List.append_assoc]
    · exact hopening.blanks
    · refine hpassed.resolve_left ?_
      simp only [List.drop_eq_nil_iff]
      omega
  · apply htakes'.takesIndent
    · refine ⟨closing.comment.text ++ closing.ending ++ text.drop block.resume, Eq.trans ?_ htext⟩
      simp only [MarkerLine.text, List.append_assoc]
    · exact hclosing.blanks
    · refine (hopening.endsIn_or (text.take start ++ before)).resolve_left ?_
      obtain ⟨more, hslash⟩ := hclosing.whole.exists_slash
      simp [MarkerLine.text, hslash]

/-- The rest of a document is read with the indentation of its markers, wherever it begins behind a
line or behind a marker. -/
theorem indented_ofRest {text tag : Text} {start : Nat} (inside : start ≤ text.length)
    (h : (Reading.ofRest text tag (LineTable.ofText text) start inside).fault = none)
    (hpassed : text.drop start = [] ∨ EndsIn '\n' (text.take start) ∨
      EndsInMarker tag (text.take start)) :
    Indented tag (text.take start) (text.drop start)
      (Reading.ofRest text tag (LineTable.ofText text) start inside).segments := by
  induction start, inside using Reading.ofRest.induct text tag (LineTable.ofText text) with
  | case1 start inside fault hlocate =>
    rw [Reading.ofRest_of_error inside hlocate] at h
    exact absurd h (by simp)
  | case2 start inside hlocate =>
    rw [Reading.ofRest_of_none inside hlocate]
    exact .plain _ _
  | case3 start inside block hlocate ih =>
    obtain ⟨-, inside'⟩ := Block.locateFrom_resume inside hlocate
    rw [Reading.ofRest_of_some inside hlocate inside'] at h ⊢
    obtain ⟨opening, closing, hdrop, hopening, hclosing, hbefore, hbody⟩ :=
      exists_takesIndent_of_locateFrom inside hpassed hlocate
    have htake := take_of_drop_eq_append hdrop
    simp only [← List.append_assoc] at htake
    have hrest := ih h (by rw [htake]; exact hclosing.endsIn_or _)
    rw [htake] at hrest
    rw [hdrop]
    exact .tagged hopening hclosing hbefore hbody hrest

/-- Only blanks at the start of a line are taken, but for those directly behind a marker: a document
is its segments and its marker lines, and each marker takes its indentation of the segment in front
of it. -/
theorem indented_of_parse {text tag : Text} {segments : List Segment}
    (h : parse text tag = .ok segments) : Indented tag [] text segments := by
  obtain ⟨hfault, rfl⟩ := parse_eq_ok_iff.mp h
  exact indented_ofRest (Nat.zero_le _) hfault (Or.inr (Or.inl (endsIn_nil _)))

/-- The blank behind other text is kept, and the tab at the start of a line is taken. -/
theorem indented_kept :
    Indented ['t'] [] ['x', ' ', '/', '/', '<', 't', '>', '\n', '\t', '/', '/', '<', '/', 't', '>']
      [.plain ['x', ' '], .tagged ⟨.line, [], [], 1, 2, 2⟩, .plain []] :=
  indented_of_parse (by decide +kernel)

/-- The blank between two markers on one line does not stand at the start of a line, and is taken all
the same. -/
theorem parse_between_markers :
    parse (['/', '*', '<', 't', '>', '*', '/'] ++ [' '] ++ ['/', '*', '<', '/', 't', '>', '*', '/'])
        ['t'] =
      .ok [.plain [], .tagged ⟨.block, [], [], 1, 1, 1⟩, .plain []] ∧
      ¬ EndsIn '\n' ['/', '*', '<', 't', '>', '*', '/'] :=
  ⟨by decide +kernel, by decide⟩

end Stencil
