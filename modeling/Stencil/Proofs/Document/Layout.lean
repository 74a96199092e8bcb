import Stencil.Proofs.Document.Shift
import Stencil.Proofs.Document.Written

/-!
# Laid out documents

A document that is laid out block by block is read as it was laid out: the plain texts in front of
the blocks, the blocks with their styles, attributes, bodies and lines, and the last plain text.
Whatever the values, the bodies and the plain texts may hold of comments and tags, nothing else is
taken for a marker.
-/

namespace Stencil

open Text

theorem fitsInto_openingTag {tag : Text} {style : Style} {attributes : Attributes}
    (htag : Token.isName tag = true) (hnames : ∀ pair ∈ attributes, Token.isName pair.1 = true)
    (hlines : style = .line → ∀ pair ∈ attributes, '\n' ∉ pair.2)
    (hclosers : style = .block → ∀ pair ∈ attributes, ¬ ['*', '/'] <:+: pair.2) :
    FitsInto style (Marker.openingTag tag attributes) where
  head := rfl
  last := by simp [Marker.openingTag]
  one_line hstyle := Marker.feed_not_mem_openingTag htag hnames (hlines hstyle)
  closed hstyle := Marker.closer_infix_openingTag htag hnames (hclosers hstyle)

theorem fitsInto_closingTag {tag : Text} (style : Style) (htag : Token.isName tag = true) :
    FitsInto style (Marker.closingTag tag) where
  head := rfl
  last := by simp [Marker.closingTag]
  one_line _ := (Marker.not_mem_closingTag htag).1
  closed _ := (Marker.not_mem_closingTag htag).2

/-- A block of a laid out document, with the plain text in front of it. -/
structure LaidBlock where
  plain : Text
  style : Style
  attributes : Attributes
  /-- The lines of the opening marker. -/
  opening : Text
  body : Text
  /-- The lines of the closing marker. -/
  closing : Text
  deriving DecidableEq, Repr

namespace LaidBlock

/-- The plain text and the block. -/
def text (block : LaidBlock) : Text :=
  block.plain ++ (block.opening ++ (block.body ++ block.closing))

/-- The parts of the block are such that they can be told apart again. -/
structure IsLaid (tag : Text) (block : LaidBlock) : Prop where
  opening : WrittenMarker block.style (Marker.openingTag tag block.attributes) block.opening
  closing : WrittenMarker block.style (Marker.closingTag tag) block.closing
  names : ∀ pair ∈ block.attributes, Token.isName pair.1 = true
  nodup : (block.attributes.map Prod.fst).Nodup
  values_line : block.style = .line → ∀ pair ∈ block.attributes, '\n' ∉ pair.2
  values_block : block.style = .block → ∀ pair ∈ block.attributes, ¬ ['*', '/'] <:+: pair.2
  plain_ends : EndsIn '\n' block.plain
  plain_comment : ¬ ['/', '*'] <:+: block.plain
  plain_opening : ¬ ('<' :: tag) <:+: block.plain
  body_ends : EndsIn '\n' block.body
  body_closing : ¬ ('<' :: '/' :: tag) <:+: block.body
  body_comment : block.style = .block → ¬ ['/', '*'] <:+: block.body

/-- The region of the block when so many lines end before the block's plain text. -/
def region (lines : Nat) (block : LaidBlock) : Region :=
  let openingLine := lines + block.plain.count '\n' + 1
  let bodyLine := openingLine + block.opening.count '\n'
  { style := block.style
    attributes := block.attributes
    body := block.body
    openingLine
    bodyLine
    closingLine := bodyLine + block.body.count '\n' }

/-- The segments of blocks and of the plain text behind them. -/
def segments (lines : Nat) : List LaidBlock → Text → List Segment
  | [], last => [.plain last]
  | block :: rest, last =>
    .plain block.plain :: .tagged (block.region lines) ::
      segments (lines + block.text.count '\n') rest last

theorem segments_shift (lines more : Nat) (blocks : List LaidBlock) (last : Text) :
    (segments more blocks last).map (Segment.shift lines) =
      segments (lines + more) blocks last := by
  induction blocks generalizing more with
  | nil => rfl
  | cons block rest ih =>
    rw [segments, segments, List.map_cons, List.map_cons, ih, Nat.add_assoc]
    simp only [Segment.shift, Region.shift, region, Nat.add_assoc]

end LaidBlock

/-- The region of a written block. -/
theorem Region.ofBlock_writtenAt (attributes : Attributes) (opening closing : MarkerLine)
    {front body rest text : Text}
    (htext : text = front ++ opening.text ++ body ++ closing.text ++ rest) :
    ofBlock text (LineTable.ofText text)
        (Block.writtenAt front.length attributes opening body closing) =
      { style := opening.comment.style
        attributes
        body
        openingLine := front.count '\n' + 1
        bodyLine := (front ++ opening.text).count '\n' + 1
        closingLine := (front ++ opening.text ++ body).count '\n' + 1 } := by
  have hline : ∀ before : Text, before <+: text →
      (LineTable.ofText text).line before.length = before.count '\n' + 1 := by
    rintro before ⟨behind, hsplit⟩
    rw [← hsplit, LineTable.line_ofText_append]
  have hopeningLine := hline front (by simp [htext, List.append_assoc])
  have hbodyLine := hline (front ++ opening.text) (by simp [htext, List.append_assoc])
  have hclosingLine := hline (front ++ opening.text ++ body) (by simp [htext, List.append_assoc])
  have hslice : text.slice (Block.writtenAt front.length attributes opening body closing).body =
      body := by
    rw [htext]
    exact Block.slice_body_writtenAt front rest attributes opening body closing
  simp only [List.length_append] at hbodyLine hclosingLine
  rw [ofBlock, hslice]
  simp only [Block.writtenAt, hopeningLine, hbodyLine, hclosingLine]

namespace Reading

theorem shift_shift (lines more : Nat) (reading : Reading) :
    (reading.shift more).shift lines = reading.shift (lines + more) := by
  have hsegment : ∀ segment : Segment,
      (segment.shift more).shift lines = segment.shift (lines + more) := by
    intro segment
    cases segment <;> simp only [Segment.shift, Region.shift, Nat.add_assoc]
  have herror : ∀ fault : Error, (fault.shift more).shift lines = fault.shift (lines + more) := by
    intro fault
    cases fault <;> simp only [Error.shift, Nat.add_assoc]
  rw [shift, shift, shift, List.map_map, Option.map_map]
  congr 2
  · funext segment
    exact hsegment segment
  · funext fault
    exact herror fault

/-- A document is read up to the end of its first block, and then what follows it is read as a
document of its own. -/
theorem ofText_of_located {front tag : Text} {block : Block} (rest : Text)
    (hfront : EndsIn '\n' front)
    (hlocate : Block.locateFrom (front ++ rest) tag (LineTable.ofText (front ++ rest)) 0 0 =
      .ok (some block)) (hresume : block.resume = front.length) :
    ofText (front ++ rest) tag =
      ⟨.plain ((front ++ rest).slice ⟨0, block.opening.start⟩) ::
          .tagged (Region.ofBlock (front ++ rest) (LineTable.ofText (front ++ rest)) block) ::
          ((ofText rest tag).shift (front.count '\n')).segments,
        ((ofText rest tag).shift (front.count '\n')).fault⟩ := by
  have inside : front.length ≤ (front ++ rest).length := (List.prefix_append front rest).length_le
  have hrest : ofRest (front ++ rest) tag (LineTable.ofText (front ++ rest)) front.length inside =
      (ofText rest tag).shift (front.count '\n') :=
    ofRest_append_add rest tag hfront (Nat.zero_le _) inside
  have inside' : block.resume ≤ (front ++ rest).length := hresume ▸ inside
  have hresumed : ofRest (front ++ rest) tag (LineTable.ofText (front ++ rest)) block.resume inside' =
      (ofText rest tag).shift (front.count '\n') := by
    simpa only [hresume] using hrest
  rw [ofText, ofRest_of_some _ hlocate inside', hresumed]

/-- A written block that is located is read behind the text in front of it, and then what follows
it is. -/
theorem ofText_of_writtenAt {tag body front rest document openingContent closingContent : Text}
    {style : Style} {attributes : Attributes} {opening closing : MarkerLine}
    (hopening : opening.IsWhole style openingContent)
    (hclosing : closing.IsWhole style closingContent)
    (hdocument : document = front ++ opening.text ++ body ++ closing.text ++ rest)
    (hlocate : Block.locateFrom document tag (LineTable.ofText document) 0 0 =
      .ok (some (Block.writtenAt front.length attributes opening body closing))) :
    ofText document tag =
      ⟨.plain front ::
          .tagged ⟨style, attributes, body, front.count '\n' + 1,
            (front ++ opening.text).count '\n' + 1,
            (front ++ opening.text ++ body).count '\n' + 1⟩ ::
          ((ofText rest tag).shift
            ((front ++ opening.text ++ body ++ closing.text).count '\n')).segments,
        ((ofText rest tag).shift
          ((front ++ opening.text ++ body ++ closing.text).count '\n')).fault⟩ := by
  have hends := hclosing.append_endsIn (front ++ opening.text ++ body)
  have hresume : (Block.writtenAt front.length attributes opening body closing).resume =
      (front ++ opening.text ++ body ++ closing.text).length := by
    simp only [Block.writtenAt, List.length_append]
  have hplain : document.slice ⟨0, front.length⟩ = front := by
    simp [slice, hdocument, List.append_assoc]
  have hregion := Region.ofBlock_writtenAt attributes opening closing hdocument
  rw [hdocument] at hlocate hplain hregion ⊢
  rw [ofText_of_located rest hends hlocate hresume, hregion, hopening.style_eq]
  simp only [Block.writtenAt, hplain]

/-- A block at the start of a document is read, and then what follows it. -/
theorem ofText_written {tag body : Text} {style : Style} {attributes : Attributes}
    {opening closing : MarkerLine} (rest : Text) (htag : Config.isTagName tag = true)
    (hnames : ∀ pair ∈ attributes, Token.isName pair.1 = true)
    (hnodup : (attributes.map Prod.fst).Nodup)
    (hopening : opening.IsWhole style (Marker.openingTag tag attributes))
    (hclosing : closing.IsWhole style (Marker.closingTag tag))
    (hbody : EndsIn '\n' body) (hfree : ¬ Marker.closingStart tag <:+: body)
    (hmark : style = .block → ¬ Style.block.mark <:+: body) :
    ofText (opening.text ++ (body ++ closing.text) ++ rest) tag =
      ⟨.plain [] ::
          .tagged ⟨style, attributes, body, 1, opening.text.count '\n' + 1,
            opening.text.count '\n' + body.count '\n' + 1⟩ ::
          ((ofText rest tag).shift
            ((opening.text ++ (body ++ closing.text)).count '\n')).segments,
        ((ofText rest tag).shift ((opening.text ++ (body ++ closing.text)).count '\n')).fault⟩ := by
  have hlocate := @Block.locateFrom_written tag body rest style attributes opening closing htag
    hnames hnodup hopening hclosing hbody hfree hmark
  have hdocument : opening.text ++ (body ++ (closing.text ++ rest)) =
      [] ++ opening.text ++ body ++ closing.text ++ rest := by
    rw [List.nil_append, List.append_assoc, List.append_assoc]
  have hread := ofText_of_writtenAt hopening hclosing hdocument hlocate
  rw [List.append_assoc, List.append_assoc, hread]
  simp only [List.nil_append, List.count_nil, Nat.zero_add, List.count_append, Nat.add_assoc]

/-- A laid out block is read, and then what follows it. -/
theorem ofText_block {tag : Text} {block : LaidBlock} (rest : Text)
    (htag : Config.isTagName tag = true) (hblock : block.IsLaid tag) :
    ofText (block.text ++ rest) tag =
      ⟨.plain block.plain :: .tagged (block.region 0) ::
          ((ofText rest tag).shift (block.text.count '\n')).segments,
        ((ofText rest tag).shift (block.text.count '\n')).fault⟩ := by
  have hname := Token.isName_of_isTagName htag
  obtain ⟨opening, hopening, hopen⟩ := hblock.opening.exists_markerLine
    (fitsInto_openingTag hname hblock.names hblock.values_line hblock.values_block)
  obtain ⟨closing, hclosing, hclose⟩ :=
    hblock.closing.exists_markerLine (fitsInto_closingTag block.style hname)
  have hread := ofText_written rest htag hblock.names hblock.nodup hopen hclose hblock.body_ends
    hblock.body_closing hblock.body_comment
  have htext : block.text ++ rest =
      block.plain ++ (opening.text ++ (block.body ++ closing.text) ++ rest) := by
    simp only [LaidBlock.text, hopening, hclosing, List.append_assoc]
  have hcount : block.text.count '\n' = block.plain.count '\n' +
      (opening.text ++ (block.body ++ closing.text)).count '\n' := by
    simp only [LaidBlock.text, hopening, hclosing, List.count_append]
  have hregion : (Region.mk block.style block.attributes block.body 1 (opening.text.count '\n' + 1)
      (opening.text.count '\n' + block.body.count '\n' + 1)).shift (block.plain.count '\n') =
        block.region 0 := by
    simp only [Region.shift, LaidBlock.region, hopening, Region.mk.injEq, true_and]
    omega
  rw [htext, ofText_append _ hblock.plain_ends hblock.plain_comment hblock.plain_opening, hread,
    hcount, ← shift_shift, ← hregion]
  simp only [shift, List.map_cons, Segment.shift, Segment.prepend, List.append_nil]

end Reading

/-- Reading undoes the layout of a document: it gives the plain texts and the blocks, each with its
style, its attributes, its body and the lines on which its parts begin. -/
theorem parse_laid {config : Config} {blocks : List LaidBlock} {last : Text}
    (hconfig : config.validate = .ok config) (hblocks : ∀ block ∈ blocks, block.IsLaid config.tag)
    (hlast : ¬ ('<' :: config.tag) <:+: last) :
    parse (blocks.flatMap LaidBlock.text ++ last) config.tag =
      .ok (LaidBlock.segments 0 blocks last) := by
  have htag := Config.isTagName_of_validate hconfig
  have hread : Reading.ofText (blocks.flatMap LaidBlock.text ++ last) config.tag =
      ⟨LaidBlock.segments 0 blocks last, none⟩ := by
    induction blocks with
    | nil => exact Reading.ofText_of_not hlast
    | cons block rest ih =>
      have hrest := ih fun other hother => hblocks other (List.mem_cons_of_mem block hother)
      rw [List.flatMap_cons, List.append_assoc,
        Reading.ofText_block _ htag (hblocks block List.mem_cons_self), hrest, Reading.shift,
        LaidBlock.segments_shift, LaidBlock.segments]
      simp only [Option.map_none, Nat.zero_add, Nat.add_zero]
  rw [parse, hread]
  rfl

/-- A block between line comments whose attribute holds what delimits comments and values. -/
def LaidBlock.lineSample : LaidBlock :=
  { plain := ['x', '\n']
    style := .line
    attributes := [(['K'], ['"', '/', '*'])]
    opening := ['\t', '/', '/', '/', ' ', '<', 't', 'm', 'p', 'l', ' ', 'K', '=', '"', '&', 'q', 'u',
      'o', 't', ';', '/', '*', '"', '>', ' ', '\r', '\n']
    body := ['1', '\n']
    closing := ['/', '/', '<', '/', 't', 'm', 'p', 'l', '>', '\n'] }

/-- A block between block comments, directly behind another block. -/
def LaidBlock.blockSample : LaidBlock :=
  { plain := []
    style := .block
    attributes := []
    opening := ['/', '*', '\n', '<', 't', 'm', 'p', 'l', '>', ' ', '*', '/', '\n']
    body := ['/', '/', '<', 't', 'm', 'p', 'l', '>', '\n']
    closing := [' ', '/', '*', '<', '/', 't', 'm', 'p', 'l', '>', '*', '/', '\n'] }

theorem LaidBlock.isLaid_samples :
    ∀ block ∈ [lineSample, blockSample], block.IsLaid ['t', 'm', 'p', 'l'] := by
  intro block hblock
  rcases List.mem_cons.mp hblock with rfl | hblock
  · constructor
    · exact @WrittenMarker.line ['\t'] ['/', '/', '/'] [' '] _ [' '] ['\r', '\n']
        (by simp [isBlank]) (by decide) (by simp) (by simp [isBlank]) (by simp [isBlank]) (Or.inr rfl)
    · exact @WrittenMarker.line [] ['/', '/'] [] _ [] ['\n']
        (by simp) (by decide) (by simp) (by simp) (by simp) (Or.inl rfl)
    all_goals decide
  · obtain rfl := List.mem_singleton.mp hblock
    constructor
    · exact @WrittenMarker.block [] ['\n'] _ [' '] [] ['\n']
        (by simp) (by simp [isAsciiSpace]) (by simp [isAsciiSpace]) (by simp) (Or.inl rfl)
    · exact @WrittenMarker.block [' '] [] _ [] [] ['\n']
        (by simp [isBlank]) (by simp) (by simp) (by simp) (Or.inl rfl)
    all_goals decide

theorem parse_laid_samples :
    parse (LaidBlock.lineSample.text ++ LaidBlock.blockSample.text ++ ['<', '/'])
        ['t', 'm', 'p', 'l'] =
      .ok [.plain ['x', '\n'], .tagged ⟨.line, [(['K'], ['"', '/', '*'])], ['1', '\n'], 2, 3, 4⟩,
        .plain [], .tagged ⟨.block, [], ['/', '/', '<', 't', 'm', 'p', 'l', '>', '\n'], 5, 7, 8⟩,
        .plain ['<', '/']] := by
  have hconfig : ({} : Config).validate = .ok {} := by decide
  have hlast : ¬ ['<', 't', 'm', 'p', 'l'] <:+: ['<', '/'] := by decide
  exact parse_laid hconfig LaidBlock.isLaid_samples hlast

end Stencil
