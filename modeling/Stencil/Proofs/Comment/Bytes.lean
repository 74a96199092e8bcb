import Stencil.Proofs.Comment.Scan
import Stencil.Proofs.Text.Bytes
import Stencil.Proofs.Text.Offset

/-!
# Scans told by bytes

A scan may begin at any byte offset, and what it yields is told by the bytes behind the offset.
Block comments are cut off one after the other, each together with the bytes in front of it; line
comments are looked for in the pieces between line feeds. In both styles there is one way to cut,
and although it is told by bytes, every range begins and ends between characters.
-/

namespace Stencil

open Text

/-- Where a comment and its content stand among the bytes of a text. -/
structure ByteRanges where
  span : Span
  content : Span
  deriving DecidableEq, Repr

/-- The ranges of a comment that begins at an offset, by the sizes of its parts. -/
def ByteRanges.ofSizes (start opener lead content trail : Nat) : ByteRanges :=
  ⟨⟨start, start + opener + lead + content + trail⟩,
    ⟨start + opener + lead, start + opener + lead + content⟩⟩

/-- The ranges begin and end between characters of a text. -/
def ByteRanges.OnBoundaries (ranges : ByteRanges) (text : Text) : Prop :=
  ∀ offset ∈ [ranges.span.start, ranges.content.start, ranges.content.stop, ranges.span.stop],
    (String.Pos.Raw.mk offset).IsValid (String.ofList text)

namespace Comment

/-- The byte ranges of a comment of a text. -/
def byteRanges (text : Text) (comment : Comment) : ByteRanges :=
  ⟨⟨offsetOf text comment.span.start, offsetOf text comment.span.stop⟩,
    ⟨offsetOf text comment.content.start, offsetOf text comment.content.stop⟩⟩

/-! ## Cutting bytes -/

/-- The block comments of bytes that begin at an offset: the first opener and the first closer
behind it delimit the first one, and the others are those of the bytes behind the closer. -/
inductive CutsBlocks : Nat → List UInt8 → List ByteRanges → Prop
  | unopened {offset : Nat} {bytes : List UInt8} (hopen : ¬ utf8 ['/', '*'] <:+: bytes) :
      CutsBlocks offset bytes []
  | unclosed {offset : Nat} {bytes gap inside : List UInt8}
      (hbytes : bytes = gap ++ utf8 ['/', '*'] ++ inside) (hgap : ¬ utf8 ['/', '*'] <:+: gap)
      (hclose : ¬ utf8 ['*', '/'] <:+: inside) : CutsBlocks offset bytes []
  /-- The content is the inside without the whitespace at both ends. Of whitespace alone nothing is
  left but the place in front of the closer. -/
  | comment {offset : Nat} {bytes gap inside lead content trail rest : List UInt8}
      {more : List ByteRanges}
      (hbytes : bytes = gap ++ utf8 ['/', '*'] ++ inside) (hgap : ¬ utf8 ['/', '*'] <:+: gap)
      (hinside : inside = lead ++ content ++ trail ++ utf8 ['*', '/'] ++ rest)
      (hclose : ¬ utf8 ['*', '/'] <:+: lead ++ content ++ trail)
      (htrims : Trims (onByte isAsciiSpace) (onByte isAsciiSpace) lead content trail)
      (hempty : content = [] → trail = [])
      (hmore : CutsBlocks (offset + gap.length + 2 + (lead ++ content ++ trail).length + 2) rest
        more) :
      CutsBlocks offset bytes (.ofSizes (offset + gap.length) 2 lead.length content.length
        (trail.length + 2) :: more)

/-- The line comments of pieces that follow one another from an offset on, each with one line feed
behind it: one for each piece with two slashes in a row. -/
inductive CutsLines : Nat → List (List UInt8) → List ByteRanges → Prop
  | nil {offset : Nat} : CutsLines offset [] []
  | skip {offset : Nat} {piece : List UInt8} {pieces : List (List UInt8)} {more : List ByteRanges}
      (hnone : ¬ utf8 ['/', '/'] <:+: piece)
      (hmore : CutsLines (offset + piece.length + 1) pieces more) :
      CutsLines offset (piece :: pieces) more
  /-- Behind the first run of slashes that is long enough stands the content, without the blanks in
  front of it and without blanks and carriage returns behind it. -/
  | comment {offset : Nat} {piece before slashes lead content tail : List UInt8}
      {pieces : List (List UInt8)} {more : List ByteRanges}
      (hpiece : piece = before ++ slashes ++ (lead ++ content ++ tail))
      (hbefore : ¬ utf8 ['/', '/'] <:+: before ++ utf8 ['/'])
      (htwo : utf8 ['/', '/'] <+: slashes)
      (hslashes : ∀ byte ∈ slashes, onByte (· == '/') byte = true)
      (hrun : ∀ byte ∈ (lead ++ content ++ tail).head?, onByte (· == '/') byte = false)
      (htrims : Trims (onByte isBlank) (onByte isLineEnd) lead content tail)
      (hempty : content = [] → lead = [])
      (hmore : CutsLines (offset + piece.length + 1) pieces more) :
      CutsLines offset (piece :: pieces) (.ofSizes (offset + before.length) slashes.length
        lead.length content.length 0 :: more)

theorem utf8_slash_star : utf8 ['/', '*'] = [47, 42] := by decide

theorem utf8_star_slash : utf8 ['*', '/'] = [42, 47] := by decide

/-- Bytes are split at their first opener in one way. -/
private theorem opener_inj {gap gap' inside inside' : List UInt8}
    (hgap : ¬ utf8 ['/', '*'] <:+: gap) (hgap' : ¬ utf8 ['/', '*'] <:+: gap')
    (h : gap ++ utf8 ['/', '*'] ++ inside = gap' ++ utf8 ['/', '*'] ++ inside') :
    gap = gap' ∧ inside = inside' := by
  rw [utf8_slash_star] at hgap hgap' h
  exact append_pair_inj (by decide) hgap hgap' (by simpa using h)

private theorem closer_inj {interior interior' rest rest' : List UInt8}
    (hinterior : ¬ utf8 ['*', '/'] <:+: interior) (hinterior' : ¬ utf8 ['*', '/'] <:+: interior')
    (h : interior ++ utf8 ['*', '/'] ++ rest = interior' ++ utf8 ['*', '/'] ++ rest') :
    interior = interior' ∧ rest = rest' := by
  rw [utf8_star_slash] at hinterior hinterior' h
  exact append_pair_inj (by decide) hinterior hinterior' (by simpa using h)

/-- There is one way to cut bytes into block comments. -/
theorem CutsBlocks.unique {offset : Nat} {bytes : List UInt8} {ranges others : List ByteRanges}
    (h : CutsBlocks offset bytes ranges) (hothers : CutsBlocks offset bytes others) :
    ranges = others := by
  have hoccurs : ∀ {before needle after bytes : List UInt8}, bytes = before ++ needle ++ after →
      needle <:+: bytes := fun hbytes => ⟨_, _, hbytes.symm⟩
  induction h generalizing others with
  | unopened hopen =>
    cases hothers with
    | unopened => rfl
    | unclosed => rfl
    | comment hbytes => exact absurd (hoccurs hbytes) hopen
  | unclosed hbytes hgap hclose =>
    cases hothers with
    | unopened => rfl
    | unclosed => rfl
    | comment hbytes' hgap' hinside =>
      obtain ⟨-, rfl⟩ := opener_inj hgap hgap' (hbytes.symm.trans hbytes')
      exact absurd (hoccurs hinside) hclose
  | comment hbytes hgap hinside hclose htrims hempty hmore ih =>
    cases hothers with
    | unopened hopen => exact absurd (hoccurs hbytes) hopen
    | unclosed hbytes' hgap' hclose' =>
      obtain ⟨-, rfl⟩ := opener_inj hgap hgap' (hbytes.symm.trans hbytes')
      exact absurd (hoccurs hinside) hclose'
    | comment hbytes' hgap' hinside' hclose' htrims' hempty' hmore' =>
      obtain ⟨rfl, rfl⟩ := opener_inj hgap hgap' (hbytes.symm.trans hbytes')
      obtain ⟨hinterior, rfl⟩ := closer_inj hclose hclose' (hinside.symm.trans hinside')
      -- Of whitespace alone all of it is taken for the run in front.
      obtain ⟨rfl, rfl, rfl⟩ := htrims.unique (fun _ => id) htrims' hinterior fun hnil hnil' => by
        rwa [hempty hnil, hempty' hnil', hnil, hnil', List.append_nil, List.append_nil,
          List.append_nil, List.append_nil] at hinterior
      rw [ih hmore']

/-- A block comment holds its content between its delimiters, and each one begins where the one
before it ends, or later. -/
theorem CutsBlocks.ordered {offset : Nat} {bytes : List UInt8} {ranges : List ByteRanges}
    (h : CutsBlocks offset bytes ranges) :
    (∀ range ∈ ranges, offset ≤ range.span.start ∧ range.span.start + 2 ≤ range.content.start ∧
      range.content.start ≤ range.content.stop ∧ range.content.stop + 2 ≤ range.span.stop) ∧
      ranges.Pairwise fun range later => range.span.stop ≤ later.span.start := by
  induction h with
  | unopened => simp
  | unclosed => simp
  | comment hbytes hgap hinside hclose htrims hempty hmore ih =>
    simp only [List.length_append] at ih
    refine ⟨?_, List.pairwise_cons.mpr ⟨fun later hlater => ?_, ih.2⟩⟩
    · intro range hrange
      rcases List.mem_cons.mp hrange with rfl | hrange
      · simp only [ByteRanges.ofSizes]
        omega
      · have := ih.1 range hrange
        omega
    · have := (ih.1 later hlater).1
      simp only [ByteRanges.ofSizes]
      omega

/-- A piece is split at its first slashes in one way. -/
private theorem slashes_inj {before before' slashes slashes' rest rest' : List UInt8}
    (hbefore : ¬ utf8 ['/', '/'] <:+: before ++ utf8 ['/'])
    (hbefore' : ¬ utf8 ['/', '/'] <:+: before' ++ utf8 ['/'])
    (htwo : utf8 ['/', '/'] <+: slashes) (htwo' : utf8 ['/', '/'] <+: slashes')
    (h : before ++ slashes ++ rest = before' ++ slashes' ++ rest') :
    before = before' ∧ slashes ++ rest = slashes' ++ rest' := by
  obtain ⟨more, rfl⟩ := htwo
  obtain ⟨more', rfl⟩ := htwo'
  have hneedle : utf8 ['/'] = (utf8 ['/', '/']).dropLast := by decide
  rw [hneedle] at hbefore hbefore'
  simp only [List.append_assoc] at h ⊢
  simp only [← List.append_assoc before, ← List.append_assoc before'] at h
  obtain ⟨hsame, hrest⟩ := append_needle_inj (by decide) hbefore hbefore' h
  exact ⟨hsame, congrArg _ hrest⟩

theorem onByte_isLineEnd (byte : UInt8) (h : onByte isBlank byte = true) :
    onByte isLineEnd byte = true := isLineEnd_of_isBlank h

/-- There is one way to read line comments off pieces. -/
theorem CutsLines.unique {offset : Nat} {pieces : List (List UInt8)}
    {ranges others : List ByteRanges} (h : CutsLines offset pieces ranges)
    (hothers : CutsLines offset pieces others) :
    ranges = others := by
  have hoccurs : ∀ {piece before slashes rest : List UInt8}, piece = before ++ slashes ++ rest →
      utf8 ['/', '/'] <+: slashes → utf8 ['/', '/'] <:+: piece :=
    fun hpiece htwo => htwo.isInfix.trans ⟨_, _, hpiece.symm⟩
  induction h generalizing others with
  | nil =>
    cases hothers
    rfl
  | skip hnone hmore ih =>
    cases hothers with
    | skip hnone' hmore' => exact ih hmore'
    | comment hpiece hbefore htwo => exact absurd (hoccurs hpiece htwo) hnone
  | comment hpiece hbefore htwo hslashes hrun htrims hempty hmore ih =>
    cases hothers with
    | skip hnone => exact absurd (hoccurs hpiece htwo) hnone
    | comment hpiece' hbefore' htwo' hslashes' hrun' htrims' hempty' hmore' =>
      obtain ⟨rfl, hline⟩ := slashes_inj hbefore hbefore' htwo htwo' (hpiece.symm.trans hpiece')
      have htake := takeWhile_run hslashes hrun
      rw [hline, takeWhile_run hslashes' hrun'] at htake
      subst htake
      obtain ⟨rfl, rfl, rfl⟩ := htrims.unique onByte_isLineEnd htrims'
        (List.append_cancel_left hline) fun hnil hnil' => by rw [hempty hnil, hempty' hnil']
      rw [ih hmore']

/-! ## The bytes of a scan -/

theorem isAsciiSpace_of_le {c : Char} (h : 128 ≤ c.toNat) : isAsciiSpace c = false := by
  rw [← Bool.not_eq_true]
  intro hspace
  simp only [isAsciiSpace, Bool.or_eq_true, beq_iff_eq] at hspace
  rcases hspace with (((rfl | rfl) | rfl) | rfl) | rfl <;> exact absurd h (by decide)

theorem isLineEnd_of_le {c : Char} (h : 128 ≤ c.toNat) : isLineEnd c = false := by
  have hspace := isAsciiSpace_of_le h
  simp only [isAsciiSpace, Bool.or_eq_false_iff] at hspace
  simp only [isLineEnd, isBlank, hspace, Bool.or_self]

theorem isBlank_of_le {c : Char} (h : 128 ≤ c.toNat) : isBlank c = false := by
  have hend := isLineEnd_of_le h
  rw [isLineEnd, Bool.or_eq_false_iff] at hend
  exact hend.1

theorem slash_of_le {c : Char} (h : 128 ≤ c.toNat) : (c == '/') = false := by
  rw [← Bool.not_eq_true, beq_iff_eq]
  rintro rfl
  exact absurd h (by decide)

/-- A text that is trimmed is trimmed byte by byte. -/
theorem trims_utf8 {front back : Char → Bool} {lead content trail : Text}
    (hfront : ∀ c, 128 ≤ c.toNat → front c = false) (hback : ∀ c, 128 ≤ c.toNat → back c = false)
    (h : Trims front back lead content trail) :
    Trims (onByte front) (onByte back) (utf8 lead) (utf8 content) (utf8 trail) where
  lead := (forall_onByte_iff hfront).mpr h.lead
  trail := (forall_onByte_iff hback).mpr h.trail
  head byte hbyte := by
    obtain ⟨c, hc, hmem⟩ := head?_utf8 hbyte
    rw [onByte_eq hfront hmem, h.head c hc]
  last byte hbyte := by
    obtain ⟨c, hc, hmem⟩ := getLast?_utf8 hbyte
    rw [onByte_eq hback hmem, h.last c hc]

/-- A comment that is written in a text stands there by the sizes of its parts. -/
theorem byteRanges_comment {text before rest : Text} {parts : Parts}
    (h : text = before ++ parts.text ++ rest) :
    byteRanges text (parts.comment before.length) = .ofSizes (byteSize before)
      (byteSize parts.opener) (byteSize parts.lead) (byteSize parts.content)
      (byteSize parts.trail) := by
  have hoffset : ∀ front behind : Text, text = front ++ behind →
      offsetOf text front.length = byteSize front := by
    intro front behind hsplit
    rw [hsplit, offsetOf, List.take_left]
  have hstart := hoffset before (parts.text ++ rest) (by rw [h, List.append_assoc])
  have hlead := hoffset (before ++ parts.opener ++ parts.lead)
    (parts.content ++ parts.trail ++ rest) (by simp [h, Parts.text])
  have hcontent := hoffset (before ++ parts.opener ++ parts.lead ++ parts.content)
    (parts.trail ++ rest) (by simp [h, Parts.text])
  have hstop := hoffset (before ++ parts.opener ++ parts.lead ++ parts.content ++ parts.trail) rest
    (by simp [h, Parts.text])
  simp only [List.length_append, byteSize_append] at hlead hcontent hstop
  simp only [byteRanges, span, content, Parts.comment, ByteRanges.ofSizes, hstart, hlead, hcontent,
    hstop]

section

variable {whole front before rest : Text} {behind : List UInt8} {offset : Nat} {parts : Parts}
  (hwhole : whole = front ++ before ++ parts.text ++ rest)
  (hbehind : ∀ byte ∈ behind, ContinuesChar byte)
  (hoffset : offset + behind.length = byteSize front)

include hoffset in
private theorem byteSize_front_append :
    byteSize (front ++ before) = offset + (behind ++ utf8 before).length := by
  rw [byteSize_append, List.length_append, length_utf8, ← hoffset, Nat.add_assoc]

include hwhole hbehind hoffset

/-- A block comment that is written behind a text without openers is the first one of the bytes. -/
theorem cutsBlocks_append {more : List ByteRanges} (hparts : parts.IsBlock)
    (hbefore : ¬ ['/', '*'] <:+: before)
    (hmore : CutsBlocks (byteSize (front ++ before ++ parts.text)) (utf8 rest) more) :
    CutsBlocks offset (behind ++ utf8 (before ++ parts.text ++ rest))
      (byteRanges whole (parts.comment (front ++ before).length) :: more) := by
  obtain ⟨-, hopener, hlead, hhead, hlast, after, htrail, hafter, hempty, hclose⟩ := hparts
  have htext : parts.text = ['/', '*'] ++ (parts.lead ++ parts.content ++ after ++ ['*', '/']) := by
    simp only [Parts.text, hopener, htrail, List.append_assoc]
  have hdelimiters : byteSize ['/', '*'] = 2 ∧ byteSize ['*', '/'] = 2 := by decide
  have hstart := @byteSize_front_append _ before _ _ hoffset
  have hstop : byteSize (front ++ before ++ parts.text) = offset + (behind ++ utf8 before).length +
      2 + (utf8 parts.lead ++ utf8 parts.content ++ utf8 after).length + 2 := by
    rw [byteSize_append, hstart, htext]
    simp only [byteSize_append, List.length_append, length_utf8, hdelimiters]
    omega
  rw [byteRanges_comment hwhole, hstart, hopener, htrail, byteSize_append, hdelimiters.1,
    hdelimiters.2, ← length_utf8, ← length_utf8, ← length_utf8]
  rw [hstop] at hmore
  refine .comment ?_ ?_ rfl ?_ ?_ ?_ hmore
  · simp only [htext, utf8_append, List.append_assoc]
  · rwa [utf8_isInfix_append_iff (by decide) hbehind]
  · rwa [← utf8_append, ← utf8_append, utf8_isInfix_iff (by decide)]
  · exact trims_utf8 (fun _ => isAsciiSpace_of_le) (fun _ => isAsciiSpace_of_le)
      ⟨hlead, hafter, hhead, hlast⟩
  · intro hnil
    rw [hempty (not_imp_not.mp utf8_ne_nil hnil), utf8_nil]

/-- A line comment that is written on a line is the one of the line's bytes. -/
theorem cutsLines_append {tail : Text} {pieces : List (List UInt8)} {more : List ByteRanges}
    (hparts : parts.IsLine) (hbefore : ¬ ['/', '/'] <:+: before ++ ['/'])
    (htail : ∀ c ∈ tail, isLineEnd c = true)
    (hmore : CutsLines (offset + (behind ++ utf8 (before ++ parts.text ++ tail)).length + 1) pieces
      more) :
    CutsLines offset ((behind ++ utf8 (before ++ parts.text ++ tail)) :: pieces)
      (byteRanges whole (parts.comment (front ++ before).length) :: more) := by
  have hrun := hparts.head?_ne_slash htail
  obtain ⟨-, htwo, hslashes, hlead, -, hhead, hlast, hempty, -, htrail⟩ := hparts
  have hstart := @byteSize_front_append _ before _ _ hoffset
  rw [byteRanges_comment hwhole, hstart, htrail, byteSize_nil, ← length_utf8, ← length_utf8,
    ← length_utf8]
  refine @CutsLines.comment _ _ _ _ _ _ (utf8 tail) _ _ ?_ ?_ ?_ ?_ ?_ ?_ ?_ hmore
  · simp only [Parts.text, htrail, utf8_append, List.append_nil, List.append_assoc]
  · rwa [List.append_assoc, ← utf8_append, utf8_isInfix_append_iff (by decide) hbehind]
  · obtain ⟨others, hothers⟩ := exists_of_two_slashes htwo hslashes
    rw [hothers, utf8_append]
    exact List.prefix_append _ _
  · rw [forall_onByte_iff fun _ => slash_of_le]
    simpa using hslashes
  · rw [← utf8_append, ← utf8_append]
    intro byte hbyte
    obtain ⟨c, hc, hmem⟩ := head?_utf8 hbyte
    rw [onByte_eq (fun _ => slash_of_le) hmem, beq_eq_false_iff_ne]
    exact hrun c hc
  · exact trims_utf8 (fun _ => isBlank_of_le) (fun _ => isLineEnd_of_le)
      ⟨hlead, htail, hhead, hlast⟩
  · intro hnil
    rw [hempty (not_imp_not.mp utf8_ne_nil hnil), utf8_nil]

end

/-- The block comments of a text are those of its bytes, also where the last bytes of the character
in front of the text are looked at. -/
theorem cutsBlocks_blocks {whole front text : Text} {behind : List UInt8} {offset : Nat}
    (hwhole : whole = front ++ text) (hbehind : ∀ byte ∈ behind, ContinuesChar byte)
    (hoffset : offset + behind.length = byteSize front) :
    CutsBlocks offset (behind ++ utf8 text)
      ((blocks front.length text).map (byteRanges whole)) := by
  obtain ⟨n, hn⟩ : ∃ n, text.length = n := ⟨_, rfl⟩
  induction n using Nat.strongRecOn generalizing text front behind offset with
  | _ n ih =>
    rcases blocks_cases front.length text with ⟨hopen, hnil⟩ |
      ⟨before, inside, rfl, hbefore, hclose, hnil⟩ |
      ⟨before, interior, rest, rfl, hbefore, hinterior, hblocks⟩
    · rw [hnil]
      exact .unopened (by rwa [utf8_isInfix_append_iff (by decide) hbehind])
    · rw [hnil]
      refine @CutsBlocks.unclosed _ _ (behind ++ utf8 before) (utf8 inside) ?_ ?_ ?_
      · simp only [utf8_append, List.append_assoc]
      · rwa [utf8_isInfix_append_iff (by decide) hbehind]
      · rwa [utf8_isInfix_iff (by decide)]
    · have hwhole' : whole = front ++ before ++ (Parts.ofInterior interior).text ++ rest := by
        simp only [hwhole, List.append_assoc]
      have hlength : rest.length < n := by
        simp only [← hn, Parts.text_ofInterior, List.length_append, List.length_cons]
        omega
      have hmore := ih rest.length hlength hwhole' (List.forall_mem_nil ContinuesChar)
        (Nat.add_zero _) rfl
      rw [hblocks, List.map_cons, ← List.length_append]
      rw [List.nil_append, List.length_append] at hmore
      exact cutsBlocks_append hwhole' hbehind hoffset (Parts.isBlock_ofInterior hinterior) hbefore
        hmore

/-- The comment of a line, if it has one, is the one of the line's bytes. -/
theorem cutsLines_ofLine? {whole front line rest : Text} {behind : List UInt8} {offset : Nat}
    {pieces : List (List UInt8)} {more : List ByteRanges} (hwhole : whole = front ++ line ++ rest)
    (hline : '\n' ∉ line) (hbehind : ∀ byte ∈ behind, ContinuesChar byte)
    (hoffset : offset + behind.length = byteSize front)
    (hmore : CutsLines (offset + (behind ++ utf8 line).length + 1) pieces more) :
    CutsLines offset ((behind ++ utf8 line) :: pieces)
      ((ofLine? front.length line).toList.map (byteRanges whole) ++ more) := by
  cases hfound : ofLine? front.length line with
  | none =>
    refine .skip ?_ hmore
    rw [utf8_isInfix_append_iff (by decide) hbehind]
    exact ofLine?_eq_none_iff.mp hfound
  | some comment =>
    obtain ⟨before, parts, tail, rfl, hparts, rfl, htail, hbefore⟩ :=
      exists_parts_of_ofLine? hfound hline
    have hwhole' : whole = front ++ before ++ parts.text ++ (tail ++ rest) := by
      simp only [hwhole, List.append_assoc]
    rw [← List.length_append]
    exact cutsLines_append hwhole' hbehind hoffset hparts hbefore htail hmore

/-- The line comments of a text are those of its bytes, also where the last bytes of the character
in front of the text are looked at. -/
theorem cutsLines_scanFrom {whole front text : Text} {behind : List UInt8} {offset : Nat}
    (hwhole : whole = front ++ text) (hbehind : ∀ byte ∈ behind, ContinuesChar byte)
    (hoffset : offset + behind.length = byteSize front) :
    CutsLines offset ((behind ++ utf8 text).splitOn 10)
      ((scanFrom .line front.length text).map (byteRanges whole)) := by
  have hfeed : ∀ {behind : List UInt8} {line : Text}, (∀ byte ∈ behind, ContinuesChar byte) →
      '\n' ∉ line → 10 ∉ behind ++ utf8 line := by
    intro behind line hbehind hline hmem
    rcases List.mem_append.mp hmem with hmem | hmem
    · exact absurd (hbehind 10 hmem).1 (by decide)
    · exact hline (mem_of_mem_utf8 hmem (by decide))
  induction text using line_induction generalizing front behind offset with
  | last line hline =>
    have hwhole' : whole = front ++ line ++ [] := by rw [hwhole, List.append_nil]
    have hcut := cutsLines_ofLine? hwhole' hline hbehind hoffset .nil
    rwa [scanFrom_line_of_not_mem hline, List.splitOn_eq_singleton (hfeed hbehind hline),
      ← List.append_nil (List.map _ _)]
  | step line rest hline ih =>
    have hbytes : behind ++ utf8 (line ++ '\n' :: rest) =
        behind ++ utf8 line ++ 10 :: utf8 rest := by
      rw [utf8_append, utf8_cons, List.append_assoc]
      rfl
    have hwhole' : whole = front ++ line ++ ['\n'] ++ rest := by
      simp only [hwhole, List.append_assoc, List.singleton_append]
    have hnext : byteSize (front ++ line ++ ['\n']) =
        offset + (behind ++ utf8 line).length + 1 := by
      rw [byteSize_append, byteSize_append, List.length_append, length_utf8, ← hoffset,
        Nat.add_assoc offset]
      rfl
    have hmore := ih hwhole' (List.forall_mem_nil ContinuesChar) (Nat.add_zero _)
    rw [List.nil_append, hnext] at hmore
    rw [hbytes, List.splitOn_append_cons_self_of_not_mem (hfeed hbehind hline),
      scanFrom_line_append, scanFrom_line_of_not_mem hline, List.map_append]
    refine cutsLines_ofLine? (hwhole.trans (List.append_assoc _ _ _).symm) hline hbehind hoffset ?_
    simpa only [List.length_append, List.length_singleton] using hmore

/-! ## Scans from an offset -/

theorem onBoundaries_byteRanges (text : Text) (comment : Comment) :
    (byteRanges text comment).OnBoundaries text := by
  simp only [ByteRanges.OnBoundaries, byteRanges, List.forall_mem_cons, isValid_offsetOf,
    List.not_mem_nil, false_implies, implies_true, and_self]

/-- A scan from an offset is one of what follows the bytes that are left of a character. -/
private theorem exists_behind (text : Text) (offset : Nat) (style : Style) :
    ∃ front behind rest, text = front ++ rest ∧ (∀ byte ∈ behind, ContinuesChar byte) ∧
      min offset (byteSize text) + behind.length = byteSize front ∧
      (utf8 text).drop offset = behind ++ utf8 rest ∧
      scanAt text offset style = scanFrom style front.length rest := by
  obtain ⟨behind, hbehind, hdrop, hlength⟩ := exists_drop_utf8 offset text
  refine ⟨_, behind, _, (List.take_append_drop (positionAfter offset text) text).symm, hbehind,
    hlength, hdrop, ?_⟩
  rw [scanAt, scan, List.length_take]

theorem cutsBlocks_scanAt (text : Text) (offset : Nat) :
    CutsBlocks (min offset (byteSize text)) ((utf8 text).drop offset)
      ((scanAt text offset .block).map (byteRanges text)) := by
  obtain ⟨front, behind, rest, htext, hbehind, hoffset, hbytes, hscan⟩ :=
    exists_behind text offset .block
  rw [hscan, hbytes]
  exact cutsBlocks_blocks htext hbehind hoffset

theorem cutsLines_scanAt (text : Text) (offset : Nat) :
    CutsLines (min offset (byteSize text)) (((utf8 text).drop offset).splitOn 10)
      ((scanAt text offset .line).map (byteRanges text)) := by
  obtain ⟨front, behind, rest, htext, hbehind, hoffset, hbytes, hscan⟩ :=
    exists_behind text offset .line
  rw [hscan, hbytes]
  exact cutsLines_scanFrom htext hbehind hoffset

/-- Scanning for block comments from any offset yields the one way to cut the bytes behind it. The
comments stand in order and apart, and no range begins or ends inside a character, even where the
offset does. -/
theorem scanAt_block_cuts (text : Text) (offset : Nat) :
    (∀ ranges, (scanAt text offset .block).map (byteRanges text) = ranges ↔
      CutsBlocks (min offset (byteSize text)) ((utf8 text).drop offset) ranges) ∧
    (∀ range ∈ (scanAt text offset .block).map (byteRanges text), range.OnBoundaries text ∧
      range.span.start + 2 ≤ range.content.start ∧ range.content.start ≤ range.content.stop ∧
      range.content.stop + 2 ≤ range.span.stop) ∧
    ((scanAt text offset .block).map (byteRanges text)).Pairwise
      fun range later => range.span.stop ≤ later.span.start := by
  have hcuts := cutsBlocks_scanAt text offset
  refine ⟨fun ranges => ⟨?_, hcuts.unique⟩, fun range hrange => ?_, hcuts.ordered.2⟩
  · rintro rfl
    exact hcuts
  · obtain ⟨comment, -, rfl⟩ := List.mem_map.mp hrange
    exact ⟨onBoundaries_byteRanges text comment, (hcuts.ordered.1 _ hrange).2⟩

example : (scanAt "é/* x */".toList 1 .block).map (byteRanges "é/* x */".toList) =
    [⟨⟨2, 9⟩, ⟨5, 6⟩⟩] := by
  cbv

/-- Scanning for line comments from any offset yields the one way to read them off the pieces
between the line feeds of the bytes behind it. No range begins or ends inside a character, even
where the offset does. -/
theorem scanAt_line_cuts (text : Text) (offset : Nat) :
    (∀ ranges, (scanAt text offset .line).map (byteRanges text) = ranges ↔
      CutsLines (min offset (byteSize text)) (((utf8 text).drop offset).splitOn 10) ranges) ∧
    ∀ range ∈ (scanAt text offset .line).map (byteRanges text), range.OnBoundaries text := by
  have hcuts := cutsLines_scanAt text offset
  refine ⟨fun ranges => ⟨?_, hcuts.unique⟩, fun range hrange => ?_⟩
  · rintro rfl
    exact hcuts
  · obtain ⟨comment, -, rfl⟩ := List.mem_map.mp hrange
    exact onBoundaries_byteRanges text comment

end Comment

end Stencil
