import Stencil.Proofs.Generation.Fault
import Stencil.Proofs.Table.Reading

/-!
# The line of an opening marker

A fault of an opening marker, or of the columns that it names, names the line on which the marker's
comment begins. That is the line of the tag where the tag follows on the same line, and in a line
comment it always does. A block comment may have line feeds in front of its tag, and then the tag
stands that many lines below the one that is named.
-/

namespace Stencil

open Text

/-- The line that a fault of an opening marker names. -/
def Error.openingLine? : Error → Option Nat
  | invalidMarker _ line _ | unclosedBlock _ line | emptyColumn line => some line
  | _ => none

/-- The comment is the opening marker that a fault is about, whatever line the fault names. It is
the earliest contender for one of the searches of the reading. -/
inductive Error.Concerns (tag text : Text) : Error → Comment → Prop
  | invalidMarker {before : List Segment} {start line : Nat} {opening : Comment}
      {reason : MarkerError} (hsearch : Reading.Searches text tag before start)
      (hfirst : Block.IsEarliest text tag (offsetOf text start) opening)
      (hread : Marker.read tag opening.text = .error reason) :
      Concerns tag text (.invalidMarker tag line reason) opening
  | unclosedBlock {before : List Segment} {start line : Nat} {opening : Comment}
      {attributes : Attributes} (hsearch : Reading.Searches text tag before start)
      (hfirst : Block.IsEarliest text tag (offsetOf text start) opening)
      (hread : Marker.read tag opening.text = .ok (some (.opening attributes)))
      (hopen : ∀ comment ∈ Comment.scan text opening.stop opening.style,
        Marker.read tag comment.text ≠ .ok (some .closing)) :
      Concerns tag text (.unclosedBlock tag line) opening
  /-- Its columns are the first ones that cannot be read: no table in front is at fault. -/
  | emptyColumn {before : List Segment} {start line : Nat} {opening : Comment}
      {attributes : Attributes} {header : Text} (hsearch : Reading.Searches text tag before start)
      (hfirst : Block.IsEarliest text tag (offsetOf text start) opening)
      (hread : Marker.read tag opening.text = .ok (some (.opening attributes)))
      (hbefore : ∀ segment ∈ before, segment.fault? = none)
      (hheader : attributes.lookup keysAttribute = some header)
      (hblank : Table.HasBlankColumn header) : Concerns tag text (.emptyColumn line) opening

/-- A marker's indentation stands on the line of its comment. -/
theorem Block.line_indentStart {text : Text} {floor start : Nat} (hfloor : floor ≤ start)
    (hstart : start ≤ text.length) :
    (LineTable.ofText text).line (indentStart text (LineTable.ofText text) floor start) =
      (LineTable.ofText text).line start := by
  obtain ⟨before, indent, rest, htext, hbefore, hindent, -, hblanks⟩ :=
    exists_indent (LineTable.ofText text) hfloor hstart
  have hfeed : '\n' ∉ indent := fun hmem => absurd (hblanks '\n' hmem) (by decide)
  have hline : (LineTable.ofText text).line before.length = before.count '\n' + 1 := by
    rw [htext, List.append_assoc, LineTable.line_ofText_append]
  rw [← hbefore, hline, ← hindent, ← List.length_append, htext, LineTable.line_ofText_append,
    List.count_append, List.count_eq_zero_of_not_mem hfeed, Nat.add_zero]

/-- The earliest contender of a search is a comment that is written in the text and begins with an
opening tag. -/
theorem Block.IsEarliest.exists_parts {text tag : Text} {offset : Nat} {opening : Comment}
    (h : IsEarliest text tag offset opening) :
    ∃ (before : Text) (parts : Comment.Parts) (rest : Text), text = before ++ parts.text ++ rest ∧
      parts.IsWhole ∧ opening = parts.comment before.length ∧
      Marker.openingStart tag <+: parts.content ∧
      positionWithin offset text ≤ before.length := by
  have hfirst := isEarliest_iff.mp h
  obtain ⟨result, hopens⟩ := hfirst.mayOpen
  obtain ⟨before, parts, rest, htext, hwhole, -, rfl, hle⟩ :=
    Comment.exists_parts_of_mem_scan hfirst.mem
  rw [Nat.min_eq_left (positionAfter_le_length offset text)] at hle
  exact ⟨before, parts, rest, htext, hwhole, rfl, Marker.openingStart_isPrefix hopens,
    Nat.le_trans (positionWithin_le_positionAfter offset text) hle⟩

theorem Error.Concerns.exists_isEarliest {tag text : Text} {fault : Error} {opening : Comment}
    (h : fault.Concerns tag text opening) :
    ∃ offset, Block.IsEarliest text tag offset opening := by
  cases h with
  | invalidMarker _ hfirst => exact ⟨_, hfirst⟩
  | unclosedBlock _ hfirst => exact ⟨_, hfirst⟩
  | emptyColumn _ hfirst => exact ⟨_, hfirst⟩

variable {text tag : Text} {found : List Segment} {start : Nat}
  (hsearch : Reading.Searches text tag found start)

include hsearch

/-- A search that fails does so at the line of a comment that its fault is about. -/
private theorem exists_concerns_of_locate {fault : Error}
    (h : Block.locate text tag (offsetOf text start) = .error fault) :
    ∃ opening, fault.Concerns tag text opening ∧
      fault.openingLine? = some ((LineTable.ofText text).line opening.start) := by
  have hselects := Block.selects_locate text tag (offsetOf text start)
  rw [h] at hselects
  cases hselects with
  | fault hfirst hread => exact ⟨_, .invalidMarker hsearch hfirst hread, rfl⟩
  | unclosed hfirst hread hscan hlater =>
    refine ⟨_, .unclosedBlock hsearch hfirst hread ?_, rfl⟩
    rwa [Block.scan_stop hscan]

/-- A region whose header has a column without a name was opened on the line of a comment that this
fault is about. -/
private theorem exists_concerns_of_blank {block : Block} {header : Text}
    (hlocate : Block.locate text tag (offsetOf text start) = .ok (some block))
    (hfound : ∀ segment ∈ found, segment.fault? = none)
    (hheader : block.attributes.lookup keysAttribute = some header)
    (hblank : Table.HasBlankColumn header) :
    let line := (Region.ofBlock text (LineTable.ofText text) block).openingLine
    ∃ opening, (Error.emptyColumn line).Concerns tag text opening ∧
      line = (LineTable.ofText text).line opening.start := by
  have hselects := Block.selects_locate text tag (offsetOf text start)
  rw [hlocate] at hselects
  cases hselects with
  | closed hfirst hread =>
    obtain ⟨before, parts, rest, htext, -, rfl, -, hle⟩ := hfirst.exists_parts
    have hlength := congrArg List.length htext
    simp only [List.length_append] at hlength
    exact ⟨_, .emptyColumn hsearch hfirst hread hfound hheader hblank,
      Block.line_indentStart hle (by rw [Comment.Parts.comment_start]; omega)⟩

omit hsearch

/-- A fault of an opening marker names the line on which the marker's comment begins. -/
theorem exists_concerns {config : Config} {text : Text} {fault : Error} {line : Nat}
    (h : generate config text = .error fault) (hline : fault.openingLine? = some line) :
    ∃ opening, fault.Concerns config.tag text opening ∧
      line = (LineTable.ofText text).line opening.start := by
  rcases generate_eq_error_iff.mp h with hparse | ⟨before, region, after, header, hparse, hbefore,
    hdirective, hread⟩
  · obtain ⟨found, start, -, hsearch, hlocate⟩ := Reading.exists_searches_of_parse hparse
    obtain ⟨opening, hconcerns, hopening⟩ := exists_concerns_of_locate hsearch hlocate
    exact ⟨opening, hconcerns, Option.some.inj (hline.symm.trans hopening)⟩
  · rcases Table.blank_or_rowFault_of_read hread with ⟨hblank, rfl⟩ | ⟨width, row, number, hrow⟩
    · obtain rfl : region.openingLine = line := Option.some.inj hline
      obtain ⟨found, start, block, -, hsearch, hlocate, rfl, hfound⟩ :=
        Reading.Searches.start.exists_of_region (Nat.zero_le _) (parse_eq_ok_iff.mp hparse).2
      exact exists_concerns_of_blank hsearch hlocate
        (fun segment hsegment => hbefore segment (hfound.subset hsegment))
        (Region.directive_eq_keys_iff.mp hdirective) hblank
    · cases hrow <;> exact absurd hline (by simp [Error.openingLine?])

/-- A fault of an opening marker names the line on which the marker's comment begins, wherever in
the document that is. The tag stands as many lines below as there are line feeds in front of it in
the comment; so it stands on the named line exactly if there are none, as always in a line
comment. -/
theorem generate_openingLine {config : Config} {text : Text} {fault : Error} {line : Nat}
    (h : generate config text = .error fault) (hline : fault.openingLine? = some line) :
    ∃ (before : Text) (parts : Comment.Parts) (rest : Text), text = before ++ parts.text ++ rest ∧
      parts.IsWhole ∧ fault.Concerns config.tag text (parts.comment before.length) ∧
      ('<' :: config.tag) <+: parts.content ∧
      line = before.count '\n' + 1 ∧
      (before ++ parts.opener ++ parts.lead).count '\n' + 1 = line + parts.lead.count '\n' ∧
      ((before ++ parts.opener ++ parts.lead).count '\n' + 1 = line ↔ '\n' ∉ parts.lead) ∧
      (parts.style = .line → '\n' ∉ parts.lead) := by
  obtain ⟨opening, hconcerns, rfl⟩ := exists_concerns h hline
  obtain ⟨offset, hfirst⟩ := hconcerns.exists_isEarliest
  obtain ⟨before, parts, rest, htext, hwhole, rfl, hstart, -⟩ := hfirst.exists_parts
  have hcomment : (LineTable.ofText text).line (parts.comment before.length).start =
      before.count '\n' + 1 := by
    rw [Comment.Parts.comment_start, htext, List.append_assoc, LineTable.line_ofText_append]
  have htag : (before ++ parts.opener ++ parts.lead).count '\n' =
      before.count '\n' + parts.lead.count '\n' := by
    rw [List.count_append, List.count_append,
      List.count_eq_zero_of_not_mem hwhole.feed_not_mem_opener, Nat.add_zero]
  refine ⟨before, parts, rest, htext, hwhole, hconcerns, hstart, hcomment, ?_, ?_, ?_⟩
  · rw [hcomment, htag]
    omega
  · rw [hcomment, htag, ← List.count_eq_zero]
    omega
  · intro hstyle hmem
    rcases hwhole with hparts | hparts
    · exact absurd (hparts.blanks '\n' hmem) (by decide)
    · exact absurd (hstyle.symm.trans hparts.style_eq) (by decide)

/-- The second column has no name. The comment that says so begins on the second line, behind its
indentation, and its tag stands on the third one. -/
theorem generate_openingLine_indented :
    let text : Text := ['a', '\n', '\t', '/', '*', '\n', '<', 't', 'm', 'p', 'l', ' ', 'K', 'e',
      'y', 's', '=', '"', 'A', ';', '"', '>', '*', '/', '/', '*', '<', '/', 't', 'm', 'p', 'l', '>',
      '*', '/']
    generate {} text = .error (.emptyColumn 2) ∧
      ∃ (before : Text) (parts : Comment.Parts) (rest : Text), text = before ++ parts.text ++ rest ∧
        parts.IsWhole ∧
        (Error.emptyColumn 2).Concerns ['t', 'm', 'p', 'l'] text (parts.comment before.length) ∧
        ['<', 't', 'm', 'p', 'l'] <+: parts.content ∧
        2 = before.count '\n' + 1 ∧
        (before ++ parts.opener ++ parts.lead).count '\n' + 1 = 2 + parts.lead.count '\n' ∧
        ((before ++ parts.opener ++ parts.lead).count '\n' + 1 = 2 ↔ '\n' ∉ parts.lead) ∧
        (parts.style = .line → '\n' ∉ parts.lead) := by
  intro text
  have h : generate {} text = .error (.emptyColumn 2) := by decide +kernel
  exact ⟨h, generate_openingLine h rfl⟩

/-- The fault of a tag on the second line names the first one. -/
theorem generate_line_in_front :
    let text : Text := ['/', '*', '\n', '<', 't', 'm', 'p', 'l', ' ', 'K', 'e', 'y', 's', '>', '\n',
      '*', '/', '\n']
    generate {} text =
        .error (.invalidMarker ['t', 'm', 'p', 'l'] 1 (.missingValue ['K', 'e', 'y', 's'])) ∧
      ∀ position < text.length, ['<', 't', 'm', 'p', 'l'] <+: text.drop position →
        (text.take position).count '\n' + 1 = 2 := by
  decide +kernel

end Stencil
