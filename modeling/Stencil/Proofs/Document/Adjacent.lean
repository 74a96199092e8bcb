import Stencil.Proofs.Document.Indent
import Stencil.Proofs.Document.Layout

/-!
# Markers behind block comments

A line comment begins with the first two slashes in a row on its line, whatever they belong to.
Directly behind a block comment the slash that closes it is the first of that run. So a line marker
that is written there takes the slash along, and the text in front is left with a comment that is
not closed. Blanks in between keep the comment whole.
-/

namespace Stencil

open Text

/-- A marker line that begins with a slash has no indentation. -/
theorem MarkerLine.IsWhole.indent_eq_nil {line : MarkerLine} {style : Style} {content : Text}
    (h : line.IsWhole style content) (hslash : line.text.head? = some '/') : line.indent = [] := by
  cases hindent : line.indent with
  | nil => rfl
  | cons c rest =>
    have hc : c = '/' := by simpa [text, hindent] using hslash
    exact absurd (h.blanks c (by simp [hindent])) (by simp [hc, isBlank])

/-- A line marker directly behind the text takes nothing of it: no slash, and no blanks, because the
last line of the text holds something else. -/
structure KeptInFront (front : Text) : Prop where
  no_slashes : ¬ ['/', '/'] <:+: front ++ ['/']
  not_blank : ∃ whole part, front = whole ++ part ∧ EndsIn '\n' whole ∧ '\n' ∉ part ∧
    part.all isBlank = false

namespace Block

variable {tag front rest document : Text} {attributes : Attributes} {opening : MarkerLine}

/-- An opening line marker is the first opening of the document if no block comment in front of it
may be one. -/
private theorem isFirst_behind (htag : Config.isTagName tag = true)
    (hopening : opening.IsWhole .line (Marker.openingTag tag []))
    (hindent : opening.indent = []) (hfront : ¬ ['/', '/'] <:+: front ++ ['/'])
    (hdocument : document = front ++ opening.text ++ rest)
    (hblock : ∀ other ∈ Comment.scan document 0 .block, MayOpen tag other →
      front.length ≤ other.start) :
    IsFirst document tag 0 (opening.comment.comment front.length) := by
  have hbefore : ¬ ['/', '/'] <:+: front ++ opening.indent ++ ['/'] := by
    rwa [hindent, List.append_nil]
  have hscan : Comment.scan document 0 .line = [] ++ opening.comment.comment front.length ::
      Comment.scanFrom .line (0 + (front ++ opening.text).length) rest := by
    rw [Comment.scan, Nat.zero_min, List.drop_zero, hdocument,
      hopening.scanFrom_line_behind hbefore, hindent, List.append_nil, Nat.zero_add,
      List.nil_append]
  refine ⟨?_, ⟨.ok [], ?_⟩, ?_⟩
  · rw [Comment.Parts.comment_style, hopening.style_eq, hscan]
    exact List.mem_cons_self
  · rw [Opens, Comment.Parts.comment_text, hopening.content_eq]
    exact Marker.read_openingTag (Token.isName_of_isTagName htag) (by simp) (by simp)
  · intro style other hother hopens
    rw [Comment.Parts.comment_start]
    cases style with
    | block => exact hblock other hother hopens
    | line =>
      rw [hscan, List.nil_append] at hother
      rcases List.mem_cons.mp hother with rfl | hother
      · exact Nat.le_refl _
      · have hstop := Comment.stop_le_start hscan hother
        rw [Comment.Parts.comment_stop] at hstop
        omega

/-- No block comment up to the end of one that is not an opening tag may open a block. -/
private theorem le_start_of_mayOpen {inside : Text} (hopener : ¬ ['/', '*'] <:+: front)
    (hcloser : ¬ ['*', '/'] <:+: inside) (htag : ¬ Marker.openingStart tag <:+: inside)
    (hdocument : document = front ++ ['/', '*'] ++ inside ++ ['*', '/'] ++ rest) {other : Comment}
    (hother : other ∈ Comment.scan document 0 .block) (hopens : MayOpen tag other) :
    (front ++ ['/', '*'] ++ inside ++ ['*', '/']).length ≤ other.start := by
  have htext : document = front ++ (Comment.Parts.ofInterior inside).text ++ rest := by
    rw [hdocument, Comment.Parts.text_ofInterior]
    simp
  rw [Comment.scan, Nat.zero_min, List.drop_zero, htext, Comment.scanFrom,
    Comment.blocks_append hopener (Comment.Parts.isBlock_ofInterior hcloser)] at hother
  rcases List.mem_cons.mp hother with rfl | hother
  · obtain ⟨result, hresult⟩ := hopens
    have hcontent : (Comment.Parts.ofInterior inside).content <:+: inside := by
      obtain ⟨after, hinside, -⟩ := exists_eq_trim_append isAsciiSpace inside
      exact ⟨_, after, hinside.symm⟩
    exact absurd ((Marker.openingStart_isPrefix hresult).isInfix.trans hcontent) htag
  · obtain ⟨earlier, later, hscan⟩ := List.append_of_mem hother
    obtain ⟨before, parts, after, -, -, -, rfl, -⟩ :=
      @Comment.exists_parts_of_scanFrom .block _ _ _ _ _ hscan
    simp only [Comment.Parts.comment_start, Comment.Parts.text_ofInterior, List.length_append]
    omega

/-- No comment begins among blanks. -/
private theorem le_start_of_blanks {gap : Text} {style : Style} {other : Comment}
    (hgap : ∀ c ∈ gap, isBlank c = true) (hdocument : document = front ++ gap ++ rest)
    (hother : other ∈ Comment.scan document 0 style) (hle : front.length ≤ other.start) :
    (front ++ gap).length ≤ other.start := by
  obtain ⟨before, parts, after, htext, hparts, -, rfl, -⟩ :=
    Comment.exists_parts_of_mem_scan hother
  obtain ⟨more, hslash⟩ := hparts.exists_slash
  rw [Comment.Parts.comment_start] at hle ⊢
  rw [hdocument, hslash, List.append_assoc, List.append_assoc] at htext
  obtain ⟨between, rfl, hbetween⟩ := exists_between htext hle
  have hlength := length_le_of_not_mem hbetween (not_mem_of_forall '/' hgap (by decide))
  simp only [List.length_append]
  omega

end Block

/-- A block between line markers is read behind a text in which nothing opens a block, and the text
goes with the slashes of the opening marker. -/
theorem parse_behind {tag front body : Text} {opening closing : MarkerLine}
    (htag : Config.isTagName tag = true)
    (hopening : opening.IsWhole .line (Marker.openingTag tag []))
    (hclosing : closing.IsWhole .line (Marker.closingTag tag)) (hindent : opening.indent = [])
    (hbody : EndsIn '\n' body) (hfree : ¬ Marker.closingStart tag <:+: body)
    (hfront : KeptInFront front)
    (hblock : ∀ other ∈ Comment.scan (front ++ opening.text ++ body ++ closing.text) 0 .block,
      Block.MayOpen tag other → front.length ≤ other.start) :
    parse (front ++ opening.text ++ body ++ closing.text) tag =
      .ok [.plain front,
        .tagged ⟨.line, [], body, front.count '\n' + 1, (front ++ opening.text).count '\n' + 1,
          (front ++ opening.text ++ body).count '\n' + 1⟩, .plain []] := by
  obtain ⟨hslashes, whole, part, hsplit, hwhole, hpart, hall⟩ := hfront
  have hfirst := Block.isFirst_behind htag hopening hindent hslashes
    (List.append_assoc _ _ _) hblock
  have hstart : Block.indentStart (front ++ opening.text ++ body ++ closing.text)
      (LineTable.ofText (front ++ opening.text ++ body ++ closing.text)) 0 front.length =
        front.length := by
    have hpassed := @Block.indentStart_passed [] whole part (opening.text ++ body ++ closing.text)
      hwhole hpart
    simpa only [List.nil_append, ← hsplit, ← List.append_assoc, hall, List.length_nil, if_neg,
      Bool.false_eq_true, if_false] using hpassed
  have hdocument : front ++ opening.text ++ body ++ closing.text =
      front ++ opening.text ++ body ++ closing.text ++ [] := (List.append_nil _).symm
  have hempty : front ++ opening.indent = front := by rw [hindent, List.append_nil]
  have hlocate := Block.locateFrom_of_isWhole htag (by simp) (by simp) hopening hclosing hbody hfree
    (by simp) hdocument (by rwa [hempty]) (by rwa [hempty])
  have hread := Reading.ofText_of_writtenAt hopening hclosing hdocument hlocate
  have hlast : Reading.ofText [] tag = ⟨[.plain []], none⟩ :=
    Reading.ofText_of_not (by simp [Marker.openingStart])
  rw [hlast] at hread
  rw [parse, hread]
  rfl

/-- A text that ends in something visible is kept in front of a marker, with any blanks in
between. -/
theorem keptInFront_append {front gap : Text} {c : Char} (hlast : front.getLast? = some c)
    (hblank : isBlank c = false) (hfeed : c ≠ '\n') (hgap : ∀ c ∈ gap, isBlank c = true)
    (hslashes : ¬ ['/', '/'] <:+: front ++ gap ++ ['/']) : KeptInFront (front ++ gap) := by
  refine ⟨hslashes, ?_⟩
  obtain ⟨whole, part, rfl, hwhole, hpart⟩ := exists_endsIn_append '\n' front
  have hmem : c ∈ part := by
    rcases List.eq_nil_or_concat' part with rfl | ⟨part, d, rfl⟩
    · rcases hwhole with rfl | hwhole
      · simp at hlast
      · simp [hwhole, hfeed.symm] at hlast
    · have hlast : d = c := by simpa using hlast
      simp [hlast]
  refine ⟨whole, part ++ gap, List.append_assoc _ _ _, hwhole, ?_, ?_⟩
  · simp [hpart, not_mem_of_forall '\n' hgap (by decide)]
  · rw [List.all_append, List.all_eq_false.mpr ⟨c, hmem, by simp [hblank]⟩, Bool.false_and]

section

variable {front inside gap : Text} (hslashes : ¬ ['/', '/'] <:+: front ++ ['/', '*'] ++ inside)
  (hgap : ∀ c ∈ gap, isBlank c = true)

include hslashes

/-- Directly behind a block comment a marker takes no more than the slash that closes it. -/
private theorem keptInFront_star : KeptInFront (front ++ ['/', '*'] ++ inside ++ ['*']) := by
  rw [← List.append_nil (front ++ ['/', '*'] ++ inside ++ ['*'])]
  have hlast := List.getLast?_append_of_ne_nil (front ++ ['/', '*'] ++ inside)
    (List.cons_ne_nil '*' [])
  refine keptInFront_append hlast (by decide) (by decide) (by simp) ?_
  rw [List.append_nil, List.append_assoc _ ['*'], pair_infix_append]
  rintro (h | h | ⟨-, h⟩)
  · exact hslashes h
  · exact absurd h (by decide)
  · simp at h

include hgap

/-- Behind blanks a marker takes nothing of a block comment. -/
private theorem keptInFront_blanks (hne : gap ≠ []) :
    KeptInFront (front ++ ['/', '*'] ++ inside ++ ['*', '/'] ++ gap) := by
  have hlast := List.getLast?_append_of_ne_nil (front ++ ['/', '*'] ++ inside)
    (List.cons_ne_nil '*' ['/'])
  refine keptInFront_append hlast (by decide) (by decide) hgap ?_
  have hslash := not_mem_of_forall '/' hgap (by decide)
  rw [pair_infix_append, pair_infix_append, pair_infix_append]
  rintro (((h | h | ⟨-, h⟩) | h | ⟨-, h⟩) | h | ⟨h, -⟩)
  · exact hslashes h
  · exact absurd h (by decide)
  · simp at h
  · exact hslash (h.subset List.mem_cons_self)
  · exact hslash (List.mem_of_head? h)
  · exact absurd h.length_le (by decide)
  · rw [List.getLast?_append_of_ne_nil _ hne] at h
    exact hslash (List.mem_of_getLast? h)

end

/-- A line marker that begins with a run of slashes. -/
private theorem exists_isWhole {slashes content : Text} (htwo : 2 ≤ slashes.length)
    (hslashes : ∀ c ∈ slashes, c = '/') (hfits : FitsInto .line content) :
    ∃ line : MarkerLine, line.text = slashes ++ [' '] ++ content ++ ['\n'] ∧
      line.IsWhole .line content ∧ line.indent = [] ∧ line.text.count '\n' = 1 := by
  have hwritten : WrittenMarker .line content
      ([] ++ slashes ++ [' '] ++ content ++ [] ++ ['\n']) :=
    .line (by simp) htwo hslashes (by simp [isBlank]) (by simp) (Or.inl rfl)
  obtain ⟨line, htext, hline⟩ := hwritten.exists_markerLine hfits
  rw [List.nil_append, List.append_nil] at htext
  refine ⟨line, htext, hline, hline.indent_eq_nil ?_, ?_⟩
  · obtain ⟨more, rfl⟩ := Comment.exists_of_two_slashes htwo hslashes
    rw [htext]
    rfl
  · have hfeed : '\n' ∉ slashes ++ [' '] ++ content := by
      have hrun : '\n' ∉ slashes := fun hmem => absurd (hslashes '\n' hmem) (by decide)
      simp [hrun, hfits.one_line rfl]
    rw [htext, List.count_append, List.count_eq_zero_of_not_mem hfeed]
    rfl

/-- A block between line markers is read behind a text that is kept in front of them, however many
slashes the opening marker begins with. -/
private theorem parse_behind_run {tag front slashes body : Text}
    (htag : Config.isTagName tag = true) (htwo : 2 ≤ slashes.length)
    (hrun : ∀ c ∈ slashes, c = '/') (hfront : KeptInFront front) (hbody : EndsIn '\n' body)
    (hfree : ¬ Marker.closingStart tag <:+: body) :
    let text := front ++ slashes ++ ([' ', '<'] ++ tag ++ ['>', '\n']) ++ body ++
      (['/', '/', ' ', '<', '/'] ++ tag ++ ['>', '\n'])
    let line := front.count '\n' + 1
    (∀ other ∈ Comment.scan text 0 .block, Block.MayOpen tag other →
      front.length ≤ other.start) →
    parse text tag = .ok [.plain front,
      .tagged ⟨.line, [], body, line, line + 1, line + body.count '\n' + 1⟩, .plain []] := by
  intro text line hblock
  have hname := Token.isName_of_isTagName htag
  obtain ⟨opening, hopen, hopenWhole, hindent, hcount⟩ := exists_isWhole htwo hrun
    (@fitsInto_openingTag tag .line [] hname (by simp) (by simp) (by simp))
  obtain ⟨closing, hclose, hcloseWhole, -, -⟩ := @exists_isWhole ['/', '/'] _ (by decide) (by simp)
    (fitsInto_closingTag .line hname)
  have htext : text = front ++ opening.text ++ body ++ closing.text := by
    simp [text, hopen, hclose, Marker.openingTag, Marker.openingStart, Marker.closingTag,
      Marker.closingStart]
  rw [htext] at hblock ⊢
  rw [parse_behind htag hopenWhole hcloseWhole hindent hbody hfree hfront hblock]
  simp only [List.count_append, hcount, line, Nat.add_assoc, Nat.add_comm 1]

/-- A block between line markers behind a block comment is read as what it is, and the text in front
of it is kept up to the comment's last character. That one, the slash which closes the comment, is
kept exactly if blanks follow it; otherwise the opening marker takes it for its first slash. -/
theorem parse_behind_comment {config : Config} {front inside gap body : Text}
    (hconfig : config.validate = .ok config)
    (hslashes : ¬ ['/', '/'] <:+: front ++ ['/', '*'] ++ inside)
    (hopener : ¬ ['/', '*'] <:+: front) (hcloser : ¬ ['*', '/'] <:+: inside)
    (hopening : ¬ ('<' :: config.tag) <:+: inside) (hgap : ∀ c ∈ gap, isBlank c = true)
    (hbody : EndsIn '\n' body) (hclosing : ¬ ('<' :: '/' :: config.tag) <:+: body) :
    let comment := front ++ ['/', '*'] ++ inside ++ ['*', '/']
    let kept := if gap = [] then front ++ ['/', '*'] ++ inside ++ ['*'] else comment ++ gap
    let line := kept.count '\n' + 1
    parse (comment ++ gap ++ (['/', '/', ' ', '<'] ++ config.tag ++ ['>', '\n']) ++ body ++
        (['/', '/', ' ', '<', '/'] ++ config.tag ++ ['>', '\n'])) config.tag =
      .ok [.plain kept,
        .tagged ⟨.line, [], body, line, line + 1, line + body.count '\n' + 1⟩, .plain []] := by
  intro comment kept line
  -- The run of slashes that the scan takes for the marker's.
  obtain ⟨slashes, htwo, hrun, htake, hkept⟩ : ∃ slashes : Text, 2 ≤ slashes.length ∧
      (∀ c ∈ slashes, c = '/') ∧ comment ++ gap ++ ['/', '/'] = kept ++ slashes ∧
      KeptInFront kept := by
    by_cases hnil : gap = []
    · refine ⟨['/', '/', '/'], by decide, by simp, ?_, ?_⟩
      · simp [kept, comment, hnil]
      · simpa only [kept, if_pos hnil] using keptInFront_star hslashes
    · refine ⟨['/', '/'], by decide, by simp, ?_, ?_⟩
      · simp [kept, hnil]
      · simpa only [kept, if_neg hnil] using keptInFront_blanks hslashes hgap hnil
  have hmarker : comment ++ gap ++ (['/', '/', ' ', '<'] ++ config.tag ++ ['>', '\n']) =
      kept ++ slashes ++ ([' ', '<'] ++ config.tag ++ ['>', '\n']) := by
    rw [← htake]
    simp
  rw [hmarker]
  refine parse_behind_run (Config.isTagName_of_validate hconfig) htwo hrun hkept hbody hclosing ?_
  rw [← hmarker]
  intro other hother hopens
  rw [List.append_assoc, List.append_assoc] at hother
  have hstop := Block.le_start_of_mayOpen hopener hcloser hopening (List.append_assoc _ _ _)
    hother hopens
  refine Nat.le_trans ?_ (Block.le_start_of_blanks hgap rfl hother hstop)
  simp only [kept, comment]
  split <;> simp

theorem parse_behind_comment_blank :
    parse (['x', '/', '*', ' ', 'c', ' ', '*', '/'] ++ ['\t'] ++
        (['/', '/', ' ', '<'] ++ ['t', 'm', 'p', 'l'] ++ ['>', '\n']) ++ ['1', '\n'] ++
        (['/', '/', ' ', '<', '/'] ++ ['t', 'm', 'p', 'l'] ++ ['>', '\n'])) ['t', 'm', 'p', 'l'] =
      .ok [.plain ['x', '/', '*', ' ', 'c', ' ', '*', '/', '\t'],
        .tagged ⟨.line, [], ['1', '\n'], 1, 2, 3⟩, .plain []] := by
  have hconfig : ({} : Config).validate = .ok {} := by decide
  have hgap : ∀ c ∈ ['\t'], isBlank c = true := by simp [isBlank]
  exact @parse_behind_comment {} ['x'] [' ', 'c', ' '] ['\t'] ['1', '\n'] hconfig (by decide)
    (by decide) (by decide) (by decide) hgap (by decide) (by decide)

/-- Directly behind the comment, the text in front of the marker loses its last slash. -/
theorem parse_behind_comment_direct :
    parse (['/', '*', ' ', 'c', ' ', '*', '/'] ++
        ['/', '/', ' ', '<', 't', 'm', 'p', 'l', '>', '\n'] ++ ['x', '\n'] ++
        ['/', '/', ' ', '<', '/', 't', 'm', 'p', 'l', '>', '\n']) ['t', 'm', 'p', 'l'] =
      .ok [.plain ['/', '*', ' ', 'c', ' ', '*'], .tagged ⟨.line, [], ['x', '\n'], 1, 2, 3⟩,
        .plain []] := by
  decide +kernel

end Stencil
