import Stencil.Proofs.Document.Partition

/-!
# The place of a region

The body of a region stands behind the segments in front of it and behind the line of its opening
marker, and it begins on the line that the region names. The segments in front compose a document of
their own: a marker line ends in the same way in the document and in a part of it.
-/

namespace Stencil

open Text

/-- What ends a marker in a document ends it in a part of the document. -/
theorem EndsMarker.of_append {ending rest more : Text} (h : EndsMarker ending (rest ++ more)) :
    EndsMarker ending rest := by
  rcases h with hnil | ⟨blanks, hblanks, hfeed | hreturn | ⟨hall, hrest⟩⟩
  · exact Or.inl hnil
  · exact Or.inr ⟨blanks, hblanks, Or.inl hfeed⟩
  · exact Or.inr ⟨blanks, hblanks, Or.inr (Or.inl hreturn)⟩
  · exact Or.inr ⟨blanks, hblanks, Or.inr (Or.inr ⟨hall, (List.append_eq_nil_iff.mp hrest).1⟩)⟩

theorem MarkerLine.Marks.of_append {line : MarkerLine} {tag : Text} {style : Style}
    {marker : Marker} {rest more : Text} (h : line.Marks tag style marker (rest ++ more)) :
    line.Marks tag style marker rest :=
  { h with ends := h.ends.of_append }

/-- The body of a region stands in a document behind the text `front`: that is the document of the
segments in front of the region and the line of its opening marker. -/
def StandsBehind (tag text : Text) (before : List Segment) (region : Region) (front : Text) : Prop :=
  ∃ (plain : Text) (opening closing : MarkerLine) (rest : Text),
    Composes tag plain before ∧ front = plain ++ opening.text ∧
    text = front ++ region.body ++ closing.text ++ rest ∧
    opening.Marks tag region.style (.opening region.attributes)
      (region.body ++ closing.text ++ rest) ∧
    closing.Marks tag region.style .closing rest

/-- A first region stands behind the plain text in front of it. -/
theorem standsBehind_first {tag plain rest : Text} {region : Region} {opening closing : MarkerLine}
    (hopening : opening.Marks tag region.style (.opening region.attributes)
      (region.body ++ closing.text ++ rest))
    (hclosing : closing.Marks tag region.style .closing rest) :
    StandsBehind tag (plain ++ opening.text ++ region.body ++ closing.text ++ rest) [.plain plain]
      region (plain ++ opening.text) :=
  ⟨plain, opening, closing, rest, .plain plain, rfl, rfl, hopening, hclosing⟩

/-- A region keeps its place behind a plain text and an earlier region. -/
theorem StandsBehind.cons {tag plain rest front : Text} {earlier region : Region}
    {before : List Segment} {opening closing : MarkerLine}
    (h : StandsBehind tag rest before region front)
    (hopening : opening.Marks tag earlier.style (.opening earlier.attributes)
      (earlier.body ++ closing.text ++ rest))
    (hclosing : closing.Marks tag earlier.style .closing rest) :
    StandsBehind tag (plain ++ opening.text ++ earlier.body ++ closing.text ++ rest)
      (.plain plain :: .tagged earlier :: before) region
      (plain ++ opening.text ++ earlier.body ++ closing.text ++ front) := by
  obtain ⟨inner, opening', closing', rest', hinner, rfl, rfl, hopening', hclosing'⟩ := h
  refine ⟨plain ++ opening.text ++ earlier.body ++ closing.text ++ inner, opening', closing', rest',
    .tagged ?_ ?_ hinner, ?_, ?_, hopening', hclosing'⟩
  · apply MarkerLine.Marks.of_append
    simpa only [List.append_assoc] using hopening
  · apply MarkerLine.Marks.of_append
    simpa only [List.append_assoc] using hclosing
  · simp only [List.append_assoc]
  · simp only [List.append_assoc]

/-- Each region that is read has its place in what was left of the document, and its body begins on
the line that follows from the text in front. -/
theorem exists_standsBehind_ofRest {text tag : Text} {start : Nat} (inside : start ≤ text.length)
    {before after : List Segment} {region : Region}
    (h : (Reading.ofRest text tag (LineTable.ofText text) start inside).segments =
      before ++ .tagged region :: after) :
    ∃ front, StandsBehind tag (text.drop start) before region front ∧
      region.bodyLine = (text.take start ++ front).count '\n' + 1 := by
  induction start, inside using Reading.ofRest.induct text tag (LineTable.ofText text)
    generalizing before with
  | case1 start inside fault hlocate =>
    rw [Reading.ofRest_of_error inside hlocate] at h
    exact absurd h (by simp)
  | case2 start inside hlocate =>
    rw [Reading.ofRest_of_none inside hlocate] at h
    cases before <;> simp at h
  | case3 start inside block hlocate ih =>
    obtain ⟨-, inside'⟩ := Block.locateFrom_resume inside hlocate
    obtain ⟨opening, closing, hdrop, hopening, hclosing, hline, -⟩ :=
      exists_marks_of_locateFrom inside hlocate
    rw [Reading.ofRest_of_some inside hlocate inside'] at h
    -- The region is that of the block itself, or it is read behind the block.
    cases before with
    | nil => exact absurd h (by simp)
    | cons first before =>
      cases before with
      | nil =>
        simp only [List.cons_append, List.nil_append, List.cons.injEq, Segment.tagged.injEq] at h
        obtain ⟨rfl, rfl, -⟩ := h
        rw [hdrop]
        exact ⟨_, standsBehind_first hopening hclosing,
          by simpa only [List.append_assoc] using hline⟩
      | cons second before =>
        simp only [List.cons_append, List.cons.injEq] at h
        obtain ⟨rfl, rfl, hrest⟩ := h
        obtain ⟨front, hfront, hbody⟩ := ih hrest
        rw [hdrop]
        refine ⟨_, hfront.cons hopening hclosing, ?_⟩
        rw [hbody, take_of_drop_eq_append hdrop, List.append_assoc (text.take start)]

/-- Each region of a document has its place in it, behind the segments in front. -/
theorem exists_standsBehind {text tag : Text} {before after : List Segment} {region : Region}
    (h : parse text tag = .ok (before ++ .tagged region :: after)) :
    ∃ front, StandsBehind tag text before region front ∧
      region.bodyLine = front.count '\n' + 1 :=
  exists_standsBehind_ofRest (Nat.zero_le _) (parse_eq_ok_iff.mp h).2

end Stencil
