import Stencil.Proofs.Document.Location
import Stencil.Proofs.Document.MarkerLine
import Stencil.Proofs.Marker.Written

/-!
# Written blocks

A marker that is written on lines of its own, in either style, is the first comment of its style
that a scan meets there. So a document that begins with a written block has that block located, with
exactly the lines of its markers left out.
-/

namespace Stencil

open Text

/-- The text is a marker with a content, written in a style on lines of its own. -/
inductive WrittenMarker : Style → Text → Text → Prop
  | line {indent slashes lead content blanks feed : Text}
      (hindent : ∀ c ∈ indent, isBlank c = true) (htwo : 2 ≤ slashes.length)
      (hslashes : ∀ c ∈ slashes, c = '/') (hlead : ∀ c ∈ lead, isBlank c = true)
      (hblanks : ∀ c ∈ blanks, isBlank c = true) (hfeed : IsFeed feed) :
      WrittenMarker .line content (indent ++ slashes ++ lead ++ content ++ blanks ++ feed)
  | block {indent lead content after blanks feed : Text}
      (hindent : ∀ c ∈ indent, isBlank c = true) (hlead : ∀ c ∈ lead, isAsciiSpace c = true)
      (hafter : ∀ c ∈ after, isAsciiSpace c = true)
      (hblanks : ∀ c ∈ blanks, isBlank c = true) (hfeed : IsFeed feed) :
      WrittenMarker .block content
        (indent ++ ['/', '*'] ++ lead ++ content ++ after ++ ['*', '/'] ++ blanks ++ feed)

/-- The content is a tag that fits into one comment of a style. -/
structure FitsInto (style : Style) (content : Text) : Prop where
  head : content.head? = some '<'
  last : content.getLast? = some '>'
  one_line : style = .line → '\n' ∉ content
  closed : style = .block → ¬ ['*', '/'] <:+: content

namespace MarkerLine

/-- The line is a marker with a content that stands on lines of its own. -/
structure IsWhole (line : MarkerLine) (style : Style) (content : Text) : Prop where
  comment : line.comment.IsWhole
  style_eq : line.comment.style = style
  content_eq : line.comment.content = content
  blanks : ∀ c ∈ line.indent, isBlank c = true
  ends : ∃ blanks feed, line.ending = blanks ++ feed ∧ (∀ c ∈ blanks, isBlank c = true) ∧
    IsFeed feed

end MarkerLine

/-- Spaces around a tag do not close a block comment. -/
private theorem not_closed {lead content after : Text} (hlead : ∀ c ∈ lead, isAsciiSpace c = true)
    (hafter : ∀ c ∈ after, isAsciiSpace c = true) (hlast : content.getLast? = some '>')
    (hcontent : ¬ ['*', '/'] <:+: content) : ¬ ['*', '/'] <:+: lead ++ content ++ after := by
  have hstar : ∀ {text : Text}, (∀ c ∈ text, isAsciiSpace c = true) → '*' ∉ text :=
    fun h => not_mem_of_forall '*' h (by decide)
  have hfree : ∀ {text : Text}, '*' ∉ text → ¬ ['*', '/'] <:+: text :=
    fun h hocc => h (hocc.subset List.mem_cons_self)
  rw [pair_infix_append, pair_infix_append]
  rintro ((h | h | ⟨h, -⟩) | h | ⟨h, -⟩)
  · exact hfree (hstar hlead) h
  · exact hcontent h
  · exact hstar hlead (List.mem_of_getLast? h)
  · exact hfree (hstar hafter) h
  · rw [List.getLast?_append, hlast] at h
    simp at h

/-- A written marker is a marker line, ended by a line break. -/
theorem WrittenMarker.exists_markerLine {style : Style} {content text : Text}
    (h : WrittenMarker style content text) (hfits : FitsInto style content) :
    ∃ line : MarkerLine, line.text = text ∧ line.IsWhole style content := by
  obtain ⟨hhead, hlast, hline, hclosed⟩ := hfits
  have hne : content ≠ [] := by
    rintro rfl
    simp at hhead
  cases h with
  | @line indent slashes lead _ blanks feed hindent htwo hslashes hlead hblanks hfeed =>
    refine ⟨⟨indent, ⟨.line, slashes, lead, content, []⟩, blanks ++ feed⟩, ?_, Or.inl ?_, rfl, rfl,
      hindent, blanks, feed, rfl, hblanks, hfeed⟩
    · simp [MarkerLine.text, Comment.Parts.text]
    · refine ⟨rfl, htwo, hslashes, hlead, ?_, ?_, ?_, ?_, hline rfl, rfl⟩
      · cases lead with
        | nil => simp [hhead]
        | cons d lead =>
          have hslash := not_mem_of_forall '/' hlead (by decide)
          simpa using Ne.symm (List.ne_of_not_mem_cons hslash)
      · simp [hhead, isBlank]
      · simp [hlast, Comment.isLineEnd, isBlank]
      · exact fun hnil => absurd hnil hne
  | @block indent lead _ after blanks feed hindent hlead hafter hblanks hfeed =>
    refine ⟨⟨indent, ⟨.block, ['/', '*'], lead, content, after ++ ['*', '/']⟩, blanks ++ feed⟩, ?_,
      Or.inr ?_, rfl, rfl, hindent, blanks, feed, rfl, hblanks, hfeed⟩
    · simp [MarkerLine.text, Comment.Parts.text]
    · refine ⟨rfl, rfl, hlead, ?_, ?_, after, rfl, hafter, fun hnil => absurd hnil hne,
        not_closed hlead hafter hlast (hclosed rfl)⟩
      · simp [hhead, isAsciiSpace]
      · simp [hlast, isAsciiSpace]

namespace MarkerLine

variable {line : MarkerLine} {style : Style} {content : Text}

theorem feed_endsIn {blanks feed : Text} (h : IsFeed feed) : EndsIn '\n' (blanks ++ feed) := by
  rcases h with rfl | rfl <;> exact Or.inr (by simp)

theorem IsWhole.append_endsIn (h : line.IsWhole style content) (front : Text) :
    EndsIn '\n' (front ++ line.text) := by
  obtain ⟨blanks, feed, hending, -, hfeed⟩ := h.ends
  rw [text, hending, ← List.append_assoc, ← List.append_assoc]
  exact feed_endsIn hfeed

theorem IsWhole.endsIn (h : line.IsWhole style content) : EndsIn '\n' line.text :=
  h.append_endsIn []

theorem IsWhole.slash_not_mem_indent (h : line.IsWhole style content) : '/' ∉ line.indent :=
  not_mem_of_forall '/' h.blanks (by decide)

theorem IsWhole.slash_not_mem_ending (h : line.IsWhole style content) : '/' ∉ line.ending := by
  obtain ⟨blanks, feed, hending, hblanks, hfeed⟩ := h.ends
  have hends : EndsMarker line.ending [] := by
    rcases hfeed with rfl | rfl
    · exact Or.inr ⟨blanks, hblanks, Or.inl hending⟩
    · exact Or.inr ⟨blanks, hblanks, Or.inr (Or.inl hending)⟩
  exact Block.slash_not_mem_of_endsMarker hends

/-- The rest of the line goes with the marker. -/
theorem IsWhole.afterMarker (h : line.IsWhole style content) {document : Text} {front rest : Text}
    (hdocument : document = front ++ line.text ++ rest) :
    Block.afterMarker document (front.length + line.indent.length + line.comment.text.length) =
      front.length + line.text.length := by
  obtain ⟨blanks, feed, hending, hblanks, hfeed⟩ := h.ends
  have hdrop : document.drop (front.length + line.indent.length + line.comment.text.length) =
      line.ending ++ rest := by
    rw [← List.length_append, ← List.length_append]
    apply drop_of_eq_append
    rw [hdocument]
    simp [text]
  rw [Block.afterMarker, hdrop, hending, Block.lineRest_append rest hblanks hfeed, length_text,
    hending, List.length_append]
  omega

/-- The indentation goes with the marker. -/
theorem IsWhole.indentStart (h : line.IsWhole style content) {document : Text} {front rest : Text}
    {floor : Nat} (hdocument : document = front ++ line.text ++ rest) (hfront : EndsIn '\n' front)
    (hfloor : floor ≤ front.length) :
    Block.indentStart document (LineTable.ofText document) floor
      (front.length + line.indent.length) = front.length := by
  have hsplit : document = front ++ line.indent ++ (line.comment.text ++ line.ending ++ rest) := by
    rw [hdocument]
    simp [text]
  rw [hsplit]
  exact Block.indentStart_append _ hfront h.blanks hfloor

/-- The rest of a marker's line, but for its line feed, may follow a line comment. -/
private theorem IsWhole.exists_tail (h : line.IsWhole style content) :
    ∃ tail, line.ending = tail ++ ['\n'] ∧ (∀ c ∈ tail, Comment.isLineEnd c = true) ∧
      '\n' ∉ tail := by
  obtain ⟨blanks, feed, hending, hblanks, hfeed⟩ := h.ends
  have hends : ∀ c ∈ blanks, Comment.isLineEnd c = true :=
    fun c hc => Comment.isLineEnd_of_isBlank (hblanks c hc)
  have hfree := not_mem_of_forall '\n' hblanks (by decide)
  rcases hfeed with rfl | rfl
  · exact ⟨blanks, hending, hends, hfree⟩
  · refine ⟨blanks ++ ['\r'], by simp [hending], ?_, by simpa using hfree⟩
    intro c hc
    rcases List.mem_append.mp hc with hc | hc
    · exact hends c hc
    · obtain rfl := List.mem_singleton.mp hc
      decide

/-- A line marker is the first line comment behind a text in which none begins, not with the last
character either. -/
theorem IsWhole.scanFrom_line_behind (h : line.IsWhole .line content) {front : Text}
    (hfront : ¬ ['/', '/'] <:+: front ++ line.indent ++ ['/']) (position : Nat) (rest : Text) :
    Comment.scanFrom .line position (front ++ line.text ++ rest) =
      line.comment.comment (position + (front ++ line.indent).length) ::
        Comment.scanFrom .line (position + (front ++ line.text).length) rest := by
  obtain ⟨tail, hending, htail, hfeed⟩ := h.exists_tail
  have hline : line.comment.IsLine :=
    h.comment.resolve_right fun hblock => by simpa [h.style_eq] using hblock.style_eq
  obtain ⟨whole, part, rfl, hwhole, hpart⟩ := exists_endsIn_append '\n' front
  have hnone : Comment.scanFrom .line position whole = [] :=
    Comment.scanFrom_eq_nil fun hocc =>
      hfront (hocc.trans ⟨[], part ++ line.indent ++ ['/'], by simp⟩)
  have hbefore : ¬ ['/', '/'] <:+: part ++ line.indent ++ ['/'] :=
    fun hocc => hfront (hocc.trans ⟨whole, [], by simp⟩)
  have htext : whole ++ part ++ line.text ++ rest =
      whole ++ (part ++ line.indent ++ line.comment.text ++ tail ++ '\n' :: rest) := by
    simp [text, hending]
  have hone : '\n' ∉ part ++ line.indent ++ line.comment.text ++ tail := by
    rw [List.mem_append, List.mem_append, List.mem_append]
    rintro (((hmem | hmem) | hmem) | hmem)
    · exact hpart hmem
    · exact absurd (h.blanks '\n' hmem) (by decide)
    · exact hline.feed_not_mem hmem
    · exact hfeed hmem
  rw [htext, Comment.scanFrom_append _ _ hwhole (by simp), hnone, List.nil_append,
    Comment.scanFrom_line_append, Comment.scanFrom_line_of_not_mem hone,
    Comment.ofLine?_append hline hbefore htail]
  simp only [Option.toList_some, List.singleton_append, text, hending, List.length_append,
    List.length_cons, List.length_nil, Nat.add_assoc]

/-- What ends a marker's line ends in a line feed and begins no comment. -/
theorem IsWhole.scanFrom_ending (h : line.IsWhole style content) (style : Style) (position : Nat)
    (rest : Text) :
    Comment.scanFrom style position (line.ending ++ rest) =
      Comment.scanFrom style (position + line.ending.length) rest := by
  obtain ⟨tail, hending, -⟩ := h.exists_tail
  have hends : EndsIn '\n' line.ending := by
    rw [hending]
    exact endsIn_append_singleton '\n' tail
  have hfree : ¬ style.mark <:+: line.ending := fun hocc =>
    h.slash_not_mem_ending (hocc.subset (by cases style <;> exact List.mem_cons_self))
  rw [Comment.scanFrom_append position rest hends fun hstyle => hstyle ▸ hfree,
    Comment.scanFrom_eq_nil hfree, List.nil_append]

private theorem IsWhole.scanFrom_block (h : line.IsWhole .block content)
    (hblock : line.comment.IsBlock) (position : Nat) (rest : Text) :
    Comment.scanFrom .block position (line.text ++ rest) =
      line.comment.comment (position + line.indent.length) ::
        Comment.scanFrom .block (position + line.text.length) rest := by
  have hbefore : ¬ ['/', '*'] <:+: line.indent :=
    fun hocc => h.slash_not_mem_indent (hocc.subset List.mem_cons_self)
  have htext : line.text ++ rest = line.indent ++ line.comment.text ++ (line.ending ++ rest) := by
    simp [text]
  have hrest := h.scanFrom_ending .block
    (position + line.indent.length + line.comment.text.length) rest
  rw [htext, Comment.scanFrom, Comment.blocks_append hbefore hblock, length_text,
    ← Nat.add_assoc, ← Nat.add_assoc]
  exact congrArg _ hrest

/-- A scan that meets a marker line yields its comment, and goes on behind the line. -/
theorem IsWhole.scanFrom (h : line.IsWhole style content) (position : Nat) (rest : Text) :
    Comment.scanFrom style position (line.text ++ rest) =
      line.comment.comment (position + line.indent.length) ::
        Comment.scanFrom style (position + line.text.length) rest := by
  rcases h.comment with hline | hblock
  · obtain rfl : style = .line := h.style_eq.symm.trans hline.style_eq
    have hslash := h.slash_not_mem_indent
    have hbefore : ¬ ['/', '/'] <:+: [] ++ line.indent ++ ['/'] := by
      rw [List.nil_append, pair_infix_append]
      rintro (hocc | hocc | ⟨hlast, -⟩)
      · exact hslash (hocc.subset List.mem_cons_self)
      · simpa using hocc.length_le
      · exact hslash (List.mem_of_getLast? hlast)
    exact h.scanFrom_line_behind hbefore position rest
  · obtain rfl : style = .block := h.style_eq.symm.trans hblock.style_eq
    exact h.scanFrom_block hblock position rest

end MarkerLine

namespace Block

variable {tag body rest : Text} {style : Style} {attributes : Attributes}
  {opening closing : MarkerLine}

/-- The opening marker of a document that begins with it is the earliest. -/
private theorem isFirst_of_isWhole (rest : Text)
    (hopening : opening.IsWhole style (Marker.openingTag tag attributes))
    (hread : Marker.read tag (Marker.openingTag tag attributes) = .ok (some (.opening attributes))) :
    IsFirst (opening.text ++ rest) tag 0 (opening.comment.comment opening.indent.length) := by
  have hscan : Comment.scan (opening.text ++ rest) 0 style =
      opening.comment.comment (0 + opening.indent.length) ::
        Comment.scanFrom style (0 + opening.text.length) rest := by
    rw [Comment.scan, Nat.zero_min, List.drop_zero, hopening.scanFrom]
  refine ⟨?_, ⟨.ok attributes, ?_⟩, ?_⟩
  · rw [Comment.Parts.comment_style, hopening.style_eq, hscan, Nat.zero_add]
    exact List.mem_cons_self
  · rw [Opens, Comment.Parts.comment_text, hopening.content_eq, hread]
    rfl
  · -- Whatever begins in front of the opening would begin with a slash in its indentation.
    intro style' other hother _
    obtain ⟨before, parts, after, htext, hparts, -, rfl, -⟩ :=
      Comment.exists_parts_of_mem_scan hother
    obtain ⟨more, hmore⟩ := hparts.exists_slash
    rw [MarkerLine.text, hmore, List.append_assoc, List.append_assoc, List.append_assoc] at htext
    exact length_le_of_not_mem htext hopening.slash_not_mem_indent

/-- The comments behind the opening marker are those of the body, and then the closing marker. -/
private theorem scan_of_isWhole {front document openingContent closingContent : Text}
    (hopening : opening.IsWhole style openingContent)
    (hclosing : closing.IsWhole style closingContent) (hbody : EndsIn '\n' body)
    (hmark : style = .block → ¬ Style.block.mark <:+: body)
    (hdocument : document = front ++ opening.text ++ body ++ closing.text ++ rest) :
    ∃ later, Comment.scan document
        (opening.comment.comment (front ++ opening.indent).length).stop style =
      Comment.scanFrom style (front ++ opening.text).length body ++
        closing.comment.comment (front ++ opening.text ++ body ++ closing.indent).length ::
          later := by
  have hsplit : document = front ++ opening.indent ++ opening.comment.text ++
      (opening.ending ++ (body ++ (closing.text ++ rest))) := by
    simp [hdocument, MarkerLine.text]
  have hstop : (opening.comment.comment (front ++ opening.indent).length).stop =
      (front ++ opening.indent ++ opening.comment.text).length := by
    rw [Comment.Parts.comment_stop, ← List.length_append]
  have hlength := congrArg List.length hsplit
  rw [List.length_append] at hlength
  rw [hstop, Comment.scan, drop_of_eq_append hsplit, Nat.min_eq_left (by omega),
    hopening.scanFrom_ending, Comment.scanFrom_append _ _ hbody hmark, hclosing.scanFrom]
  simp only [MarkerLine.text, List.length_append, Nat.add_assoc]
  exact ⟨_, rfl⟩

/-- No comment is a closing tag in a text without the beginning of one. -/
private theorem isClosing_of_not (style : Style) (position : Nat)
    (h : ¬ Marker.closingStart tag <:+: body) :
    ∀ comment ∈ Comment.scanFrom style position body, isClosing tag comment = false := by
  intro comment hmem
  rw [isClosing_eq_false_iff]
  intro hread
  apply h
  exact (Marker.closingStart_isPrefix hread).isInfix.trans
    (Comment.text_isInfix_of_mem_scanFrom hmem)

/-- The comments of a written block delimit it, each with its whole lines. -/
private theorem between_of_isWhole {front document openingContent closingContent : Text}
    (attributes : Attributes) (hopening : opening.IsWhole style openingContent)
    (hclosing : closing.IsWhole style closingContent) (hbody : EndsIn '\n' body)
    (hdocument : document = front ++ opening.text ++ body ++ closing.text ++ rest)
    (hstart : indentStart document (LineTable.ofText document) 0
      (front ++ opening.indent).length = front.length) :
    between document (LineTable.ofText document) 0 attributes
        (opening.comment.comment (front ++ opening.indent).length)
        (closing.comment.comment (front ++ opening.text ++ body ++ closing.indent).length) =
      writtenAt front.length attributes opening body closing := by
  have hfront : document = front ++ opening.text ++ (body ++ (closing.text ++ rest)) := by
    rw [hdocument, List.append_assoc, List.append_assoc]
  have hends := (hopening.append_endsIn front).append hbody
  have hbodyStart := hopening.afterMarker hfront
  have hresume := hclosing.afterMarker hdocument
  have hclosingStart := hclosing.indentStart hdocument hends
    (List.prefix_append (front ++ opening.text) body).length_le
  simp only [List.length_append] at hbodyStart hresume hclosingStart hstart
  simp only [between, Comment.Parts.comment_start, Comment.Parts.comment_stop,
    Comment.Parts.comment_style, List.length_append, hbodyStart, hstart, hresume, hclosingStart]
  simp only [writtenAt]

/-- A written block is located when its opening marker is the first of the document and takes its
whole indentation. -/
theorem locateFrom_of_isWhole {front document : Text} (htag : Config.isTagName tag = true)
    (hnames : ∀ pair ∈ attributes, Token.isName pair.1 = true)
    (hnodup : (attributes.map Prod.fst).Nodup)
    (hopening : opening.IsWhole style (Marker.openingTag tag attributes))
    (hclosing : closing.IsWhole style (Marker.closingTag tag))
    (hbody : EndsIn '\n' body) (hfree : ¬ Marker.closingStart tag <:+: body)
    (hmark : style = .block → ¬ Style.block.mark <:+: body)
    (hdocument : document = front ++ opening.text ++ body ++ closing.text ++ rest)
    (hfirst : IsFirst document tag 0 (opening.comment.comment (front ++ opening.indent).length))
    (hstart : indentStart document (LineTable.ofText document) 0
      (front ++ opening.indent).length = front.length) :
    locateFrom document tag (LineTable.ofText document) 0 0 =
      .ok (some (writtenAt front.length attributes opening body closing)) := by
  have hname := Token.isName_of_isTagName htag
  have hopens : Opens tag (opening.comment.comment (front ++ opening.indent).length)
      (.ok attributes) := by
    rw [Opens, Comment.Parts.comment_text, hopening.content_eq]
    exact Marker.read_openingTag hname hnames hnodup
  have hcloses : isClosing tag (closing.comment.comment
      (front ++ opening.text ++ body ++ closing.indent).length) = true := by
    rw [isClosing_iff, Comment.Parts.comment_text, hclosing.content_eq]
    exact Marker.read_closingTag hname
  have hskipped := isClosing_of_not style (front ++ opening.text).length hfree
  obtain ⟨later, hscan⟩ := scan_of_isWhole hopening hclosing hbody hmark hdocument
  have hstyle : (opening.comment.comment (front ++ opening.indent).length).style = style :=
    hopening.style_eq
  rw [← hstyle] at hscan hskipped
  rw [locateFrom_of_closed _ _ hfirst hopens hscan hskipped hcloses,
    between_of_isWhole attributes hopening hclosing hbody hdocument hstart]

/-- A document that begins with a written block has that block located. -/
theorem locateFrom_written (htag : Config.isTagName tag = true)
    (hnames : ∀ pair ∈ attributes, Token.isName pair.1 = true)
    (hnodup : (attributes.map Prod.fst).Nodup)
    (hopening : opening.IsWhole style (Marker.openingTag tag attributes))
    (hclosing : closing.IsWhole style (Marker.closingTag tag))
    (hbody : EndsIn '\n' body) (hfree : ¬ Marker.closingStart tag <:+: body)
    (hmark : style = .block → ¬ Style.block.mark <:+: body) :
    locateFrom (opening.text ++ (body ++ (closing.text ++ rest))) tag
        (LineTable.ofText (opening.text ++ (body ++ (closing.text ++ rest)))) 0 0 =
      .ok (some (writtenAt 0 attributes opening body closing)) := by
  have hname := Token.isName_of_isTagName htag
  have hfirst := isFirst_of_isWhole (body ++ (closing.text ++ rest)) hopening
    (Marker.read_openingTag hname hnames hnodup)
  have hdocument : opening.text ++ (body ++ (closing.text ++ rest)) =
      [] ++ opening.text ++ body ++ closing.text ++ rest := by
    rw [List.nil_append, List.append_assoc, List.append_assoc]
  have hstart := @MarkerLine.IsWhole.indentStart _ _ _ hopening _ []
    (body ++ (closing.text ++ rest)) _ rfl (endsIn_nil '\n') (Nat.zero_le _)
  rw [List.length_nil, Nat.zero_add] at hstart
  exact locateFrom_of_isWhole htag hnames hnodup hopening hclosing hbody hfree hmark hdocument
    hfirst hstart

end Block

end Stencil
