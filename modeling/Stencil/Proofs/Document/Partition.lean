import Stencil.Document.Segment
import Stencil.Proofs.Document.Location
import Stencil.Proofs.Document.MarkerLine

/-!
# Documents and their segments

A document is its plain texts, its marker lines and its bodies in order: reading loses no text and
takes none twice. Each step of the reading locates a block whose ranges follow one another from the
offset at which the search began, so the next step begins farther on.
-/

namespace Stencil

open Text

namespace Comment

/-- The content of a comment is what stands in its range. -/
theorem slice_content {text : Text} {start : Nat} {style : Style} {comment : Comment}
    (h : comment ∈ scan text start style) :
    text.slice comment.content = comment.text ∧ comment.content.stop ≤ text.length := by
  obtain ⟨before, parts, rest, rfl, -, -, rfl, -⟩ := exists_parts_of_mem_scan h
  have htext : before ++ parts.text ++ rest =
      before ++ parts.opener ++ parts.lead ++ parts.content ++ (parts.trail ++ rest) := by
    simp only [Parts.text, List.append_assoc]
  have hcontent : (parts.comment before.length).content =
      ⟨(before ++ parts.opener ++ parts.lead).length,
        (before ++ parts.opener ++ parts.lead).length + parts.content.length⟩ := by
    simp only [content, Parts.comment, List.length_append]
  rw [htext, hcontent]
  constructor
  · exact slice_append _ _ _
  · simp only [List.length_append]
    omega

end Comment

namespace Block

/-- A scan that begins in a document is the search from an offset. -/
theorem locateFrom_eq_locate {text : Text} (tag : Text) {start : Nat} (h : start ≤ text.length) :
    locateFrom text tag (LineTable.ofText text) start start =
      locate text tag (offsetOf text start) := by
  rw [locate, positionWithin_offsetOf h, positionAfter_offsetOf h]

/-- A block is delimited by an opening comment and a closing comment behind it. -/
theorem exists_between_of_locate {text tag : Text} {offset : Nat} {block : Block}
    (h : locate text tag offset = .ok (some block)) :
    ∃ opening closing attributes,
      opening ∈ Comment.scan text (positionAfter offset text) opening.style ∧
      Marker.read tag opening.text = .ok (some (.opening attributes)) ∧
      closing ∈ Comment.scan text opening.stop opening.style ∧
      Marker.read tag closing.text = .ok (some .closing) ∧
      block = between text (LineTable.ofText text) (positionWithin offset text) attributes opening
        closing := by
  have hselects := selects_locate text tag offset
  rw [h] at hselects
  cases hselects with
  | closed hfirst hread hscan hskipped hclosing =>
    refine ⟨_, _, _, (isEarliest_iff.mp hfirst).mem, hread, ?_, hclosing, rfl⟩
    rw [scan_stop hscan]
    exact List.mem_append_right _ List.mem_cons_self

/-- The indentation of the opening does not reach into the character in which the search began. -/
private theorem positionAfter_le {text before indent rest : Text} {offset : Nat}
    (hsplit : text = before ++ indent ++ rest) (hindent : ∀ c ∈ indent, isBlank c = true)
    (hfloor : positionWithin offset text ≤ before.length)
    (hstart : positionAfter offset text ≤ before.length + indent.length) :
    positionAfter offset text ≤ before.length := by
  rcases positionWithin_eq_or offset text with heq | ⟨front, c, after, htext, hwithin, hafter, hc⟩
  · rwa [← heq]
  · by_contra hlt
    have hlen : before.length = front.length := by omega
    rw [htext, List.append_assoc] at hsplit
    obtain ⟨rfl, hrest⟩ := List.append_inj hsplit hlen.symm
    cases indent with
    | nil =>
      rw [List.length_nil] at hstart
      omega
    | cons d indent =>
      obtain ⟨rfl, -⟩ := List.cons.inj hrest
      exact absurd (hindent c List.mem_cons_self) (by simp [isBlank_of_size hc])

/-- Two comments that follow one another are written with their lines around a body, and the block
that they delimit is the written one. -/
private theorem exists_markerLines {text before₁ rest₁ before₂ rest₂ : Text}
    {parts₁ parts₂ : Comment.Parts} {floor : Nat} (attributes : Attributes)
    (htext₁ : text = before₁ ++ parts₁.text ++ rest₁)
    (htext₂ : text = before₂ ++ parts₂.text ++ rest₂) (hwhole : parts₂.IsWhole)
    (hfloor : floor ≤ before₁.length) (hstop : (before₁ ++ parts₁.text).length ≤ before₂.length) :
    ∃ (front : Text) (opening : MarkerLine) (body : Text) (closing : MarkerLine) (rest : Text),
      text = front ++ opening.text ++ body ++ closing.text ++ rest ∧
      opening.comment = parts₁ ∧ closing.comment = parts₂ ∧ before₁ = front ++ opening.indent ∧
      floor ≤ front.length ∧ (∀ c ∈ opening.indent, isBlank c = true) ∧
      EndsMarker opening.ending (body ++ closing.text ++ rest) ∧
      (∀ c ∈ closing.indent, isBlank c = true) ∧ EndsMarker closing.ending rest ∧
      between text (LineTable.ofText text) floor attributes (parts₁.comment before₁.length)
        (parts₂.comment before₂.length) = writtenAt front.length attributes opening body closing ∧
      TakesBack text floor front opening.indent ∧
      TakesBack text (front ++ opening.text).length (front ++ opening.text ++ body)
        closing.indent := by
  obtain ⟨front, line₁, after₁, rfl, rfl, rfl, hindent₁, hresume₁, hfloor₁, hblanks₁, hends₁⟩ :=
    exists_markerLine (LineTable.ofText text) htext₁ hfloor
  have hboth : front ++ line₁.text ++ after₁ = before₂ ++ parts₂.text ++ rest₂ := by
    rw [← htext₂, htext₁]
    simp only [MarkerLine.text, List.append_assoc]
  obtain ⟨gap, hgap, rfl⟩ := exists_behind_markerLine hboth hends₁ hwhole hstop
  have hbehind : (front ++ line₁.text).length ≤ before₂.length := by
    rw [hgap]
    exact (List.prefix_append _ gap).length_le
  obtain ⟨front₂, line₂, after₂, rfl, hbefore₂, rfl, hindent₂, hresume₂, hfloor₂, hblanks₂,
    hends₂⟩ := exists_markerLine (LineTable.ofText text) htext₂ hbehind
  obtain ⟨body, rfl, rfl⟩ := exists_between (hgap.symm.trans hbefore₂) hfloor₂
  refine ⟨front, line₁, body, line₂, after₂, ?_, rfl, rfl, rfl, hfloor₁, hblanks₁, ?_, hblanks₂,
    hends₂, ?_, hindent₁, ?_⟩
  · rw [htext₂, hbefore₂]
    simp only [MarkerLine.text, List.append_assoc]
  · simpa only [MarkerLine.text, List.append_assoc] using hends₁
  · have hbody : (front ++ line₁.text).length =
        afterMarker text ((front ++ line₁.indent).length + line₁.comment.text.length) := by
      rw [hresume₁, List.length_append]
    simp only [between, Comment.Parts.comment_start, Comment.Parts.comment_stop,
      Comment.Parts.comment_style, ← hbody, ← hindent₁, ← hindent₂, hresume₂]
    simp only [writtenAt, hbefore₂, List.length_append, Nat.add_assoc]
  · rwa [hbefore₂] at hindent₂

/-- A block is written in its document: from some position on stand the opening marker, the body
and the closing marker. -/
theorem exists_written {text tag : Text} {offset : Nat} {block : Block}
    (h : locate text tag offset = .ok (some block)) :
    ∃ (before : Text) (opening : MarkerLine) (body : Text) (closing : MarkerLine) (rest : Text),
      text = before ++ opening.text ++ body ++ closing.text ++ rest ∧
      opening.Marks tag block.style (.opening block.attributes) (body ++ closing.text ++ rest) ∧
      closing.Marks tag block.style .closing rest ∧
      block = writtenAt before.length block.attributes opening body closing ∧
      positionAfter offset text ≤ before.length ∧
      TakesBack text (positionWithin offset text) before opening.indent ∧
      TakesBack text (before ++ opening.text).length (before ++ opening.text ++ body)
        closing.indent := by
  obtain ⟨opening, closing, attributes, hopening, hread, hclosing, hclose, rfl⟩ :=
    exists_between_of_locate h
  obtain ⟨before₁, parts₁, rest₁, htext₁, hwhole₁, -, rfl, hle₁⟩ :=
    Comment.exists_parts_of_mem_scan hopening
  obtain ⟨before₂, parts₂, rest₂, htext₂, hwhole₂, hstyle₂, rfl, hle₂⟩ :=
    Comment.exists_parts_of_mem_scan hclosing
  have hwithin := positionWithin_le_positionAfter offset text
  have hlen := congrArg List.length htext₁
  simp only [List.length_append] at hlen
  rw [Nat.min_eq_left (positionAfter_le_length offset text)] at hle₁
  rw [Comment.Parts.comment_stop, Nat.min_eq_left (by omega), ← List.length_append] at hle₂
  obtain ⟨front, line₁, body, line₂, rest, htext, rfl, rfl, rfl, hfloor, hblanks₁, hends₁, hblanks₂,
    hends₂, hbetween, htakes⟩ := exists_markerLines attributes htext₁ htext₂ hwhole₂
      (Nat.le_trans hwithin hle₁) hle₂
  refine ⟨front, line₁, body, line₂, rest, htext, ⟨hblanks₁, hwhole₁, rfl, hread, hends₁⟩,
    ⟨hblanks₂, hwhole₂, hstyle₂, hclose, hends₂⟩, hbetween, ?_, htakes⟩
  rw [List.length_append] at hle₁
  exact positionAfter_le (by rw [htext₁, List.append_assoc (front ++ line₁.indent)]) hblanks₁
    hfloor hle₁

/-! ## Ranges -/

/-- The ranges of a block follow one another from a byte offset on, up to the end of the text. -/
structure Advances (text : Text) (offset : Nat) (block : Block) : Prop where
  from_le : offset ≤ offsetOf text block.opening.start
  opening_lt : offsetOf text block.opening.start < offsetOf text block.opening.stop
  opening_le : offsetOf text block.opening.stop ≤ offsetOf text block.body.start
  body_le : offsetOf text block.body.start ≤ offsetOf text block.body.stop
  closing_eq : block.body.stop = block.closing.start
  closing_lt : offsetOf text block.closing.start < offsetOf text block.closing.stop
  closing_le : offsetOf text block.closing.stop ≤ offsetOf text block.resume
  resume_le : offsetOf text block.resume ≤ byteSize text
  /-- Positions beyond the end would have the size of the text for an offset. -/
  inside : block.resume ≤ text.length

theorem advances_of_locate {text tag : Text} {offset : Nat} {block : Block}
    (hoffset : offset ≤ byteSize text) (h : locate text tag offset = .ok (some block)) :
    Advances text offset block := by
  obtain ⟨before, opening, body, closing, rest, htext, hopening, hclosing, hblock, hle, -⟩ :=
    exists_written h
  obtain ⟨more, hslash⟩ := hopening.whole.exists_slash
  obtain ⟨more', hslash'⟩ := hclosing.whole.exists_slash
  have hlen := congrArg List.length htext
  have hopen := congrArg List.length hslash
  have hclose := congrArg List.length hslash'
  simp only [List.length_append, List.length_cons, MarkerLine.length_text] at hlen hopen hclose
  rw [hblock, writtenAt]
  refine ⟨?_, ?_, ?_, ?_, rfl, ?_, ?_, offsetOf_le_byteSize _ _, ?_⟩
  · exact Nat.le_trans (le_offsetOf_positionAfter hoffset) (offsetOf_le_offsetOf text hle)
  all_goals simp only [MarkerLine.length_text]
  · exact offsetOf_lt_offsetOf (by omega) (by omega)
  · exact offsetOf_le_offsetOf text (by omega)
  · exact offsetOf_le_offsetOf text (by omega)
  · exact offsetOf_lt_offsetOf (by omega) (by omega)
  · exact offsetOf_le_offsetOf text (by omega)
  · omega

/-- A block stands in the text, behind the position at which the search began. -/
theorem range_of_locate {text tag : Text} {offset : Nat} {block : Block}
    (h : locate text tag offset = .ok (some block)) :
    positionAfter offset text ≤ block.opening.start ∧ block.opening.start ≤ text.length ∧
      block.body.start ≤ block.body.stop ∧ block.body.stop ≤ text.length := by
  obtain ⟨before, opening, body, closing, rest, htext, -, -, hblock, hle, -⟩ := exists_written h
  have hlen := congrArg List.length htext
  simp only [List.length_append] at hlen
  rw [hblock]
  simp only [writtenAt]
  omega

end Block

/-! ## Whole documents -/

/-- A document is its segments in order, with the marker lines around each body: a plain text, or a
plain text, the two marker lines of a region around its body, and a document again. -/
inductive Composes (tag : Text) : Text → List Segment → Prop
  | plain (text : Text) : Composes tag text [.plain text]
  | tagged {before rest : Text} {opening closing : MarkerLine} {region : Region}
      {segments : List Segment}
      (hopening : opening.Marks tag region.style (.opening region.attributes)
        (region.body ++ closing.text ++ rest))
      (hclosing : closing.Marks tag region.style .closing rest)
      (hrest : Composes tag rest segments) :
      Composes tag (before ++ opening.text ++ region.body ++ closing.text ++ rest)
        (.plain before :: .tagged region :: segments)

/-- One step of the reading: what is left of a document is the plain text in front of the located
block, the marker lines around the body of its region, and what is read next. The body begins on the
line that the region names, and neither marker takes anything that was read before it. -/
theorem exists_marks_of_locateFrom {text tag : Text} {start : Nat} {block : Block}
    (inside : start ≤ text.length)
    (h : Block.locateFrom text tag (LineTable.ofText text) start start = .ok (some block)) :
    let region := Region.ofBlock text (LineTable.ofText text) block
    ∃ opening closing : MarkerLine,
      text.drop start = text.slice ⟨start, block.opening.start⟩ ++ opening.text ++ region.body ++
        closing.text ++ text.drop block.resume ∧
      opening.Marks tag region.style (.opening region.attributes)
        (region.body ++ closing.text ++ text.drop block.resume) ∧
      closing.Marks tag region.style .closing (text.drop block.resume) ∧
      region.bodyLine = (text.take start ++ text.slice ⟨start, block.opening.start⟩ ++
        opening.text).count '\n' + 1 ∧
      Block.TakesBack text start (text.take start ++ text.slice ⟨start, block.opening.start⟩)
        opening.indent ∧
      Block.TakesBack text
        (text.take start ++ text.slice ⟨start, block.opening.start⟩ ++ opening.text).length
        (text.take start ++ text.slice ⟨start, block.opening.start⟩ ++ opening.text ++ region.body)
        closing.indent := by
  intro region
  rw [Block.locateFrom_eq_locate tag inside] at h
  obtain ⟨before, opening, body, closing, rest, htext, hopening, hclosing, hblock, hle, htakes⟩ :=
    Block.exists_written h
  rw [positionAfter_offsetOf inside] at hle
  rw [positionWithin_offsetOf inside] at htakes
  obtain ⟨skipped, plain, rfl, rfl⟩ : ∃ skipped plain, before = skipped ++ plain ∧
      skipped.length = start :=
    ⟨before.take start, before.drop start, (List.take_append_drop start before).symm,
      List.length_take_of_le hle⟩
  have hbody : region.body = body := by
    simp only [region, Region.ofBlock]
    rw [hblock, htext]
    exact Block.slice_body_writtenAt _ _ _ _ _ _
  have hresume : text.drop block.resume = rest := by
    rw [hblock, htext]
    exact Block.drop_resume_writtenAt _ _ _ _ _ _
  have hplain : text.slice ⟨skipped.length, block.opening.start⟩ = plain := by
    have hsplit : text = skipped ++ plain ++ (opening.text ++ body ++ closing.text ++ rest) := by
      simp only [htext, List.append_assoc]
    rw [hblock, hsplit]
    simpa only [Block.writtenAt, List.length_append] using slice_append skipped plain _
  have htake : text.take skipped.length = skipped := by
    rw [htext]
    simp only [List.append_assoc, List.take_left]
  have hline : region.bodyLine = (skipped ++ plain ++ opening.text).count '\n' + 1 := by
    have hsplit : text = skipped ++ plain ++ opening.text ++ (body ++ closing.text ++ rest) := by
      simp only [htext, List.append_assoc]
    have hstart : block.body.start = (skipped ++ plain ++ opening.text).length := by
      rw [hblock]
      simp only [Block.writtenAt, List.length_append]
    simp only [region, Region.ofBlock]
    rw [hstart, hsplit, LineTable.line_ofText_append]
  rw [hbody, hresume, hplain, htake]
  refine ⟨opening, closing, ?_, hopening, hclosing, hline, htakes⟩
  apply drop_of_eq_append
  simp only [htext, List.append_assoc]

/-- Reading the rest of a document composes it. -/
theorem composes_ofRest {text tag : Text} {start : Nat} (inside : start ≤ text.length)
    (h : (Reading.ofRest text tag (LineTable.ofText text) start inside).fault = none) :
    Composes tag (text.drop start)
      (Reading.ofRest text tag (LineTable.ofText text) start inside).segments := by
  induction start, inside using Reading.ofRest.induct text tag (LineTable.ofText text) with
  | case1 start inside fault hlocate =>
    rw [Reading.ofRest_of_error inside hlocate] at h
    exact absurd h (by simp)
  | case2 start inside hlocate =>
    rw [Reading.ofRest_of_none inside hlocate]
    exact .plain _
  | case3 start inside block hlocate ih =>
    obtain ⟨-, inside'⟩ := Block.locateFrom_resume inside hlocate
    rw [Reading.ofRest_of_some inside hlocate inside'] at h ⊢
    obtain ⟨opening, closing, hdrop, hopening, hclosing, -⟩ :=
      exists_marks_of_locateFrom inside hlocate
    rw [hdrop]
    exact .tagged hopening hclosing (ih h)

theorem parse_eq_ok_iff {text tag : Text} {segments : List Segment} :
    parse text tag = .ok segments ↔
      (Reading.ofText text tag).fault = none ∧ (Reading.ofText text tag).segments = segments := by
  rw [parse, Reading.toExcept]
  cases (Reading.ofText text tag).fault <;> simp

theorem composes_of_parse {text tag : Text} {segments : List Segment}
    (h : parse text tag = .ok segments) : Composes tag text segments := by
  obtain ⟨hfault, rfl⟩ := parse_eq_ok_iff.mp h
  exact composes_ofRest (Nat.zero_le _) hfault

end Stencil
