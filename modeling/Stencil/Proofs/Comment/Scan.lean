import Stencil.Proofs.Comment.Parts

/-!
# What a scan yields

The first comment of a scan stands where the mark of its style first stands, and the other comments
are those of a scan that begins where the first one ends. From this one step follow the order of
the comments, that a scan may be taken up again behind any of its comments, and that a scan does
not depend on the position of the text that is scanned.
-/

namespace Stencil.Comment

open Text

/-- The comment at a position that is larger by `shift`. -/
def moved (shift : Nat) (comment : Comment) : Comment :=
  { comment with start := shift + comment.start }

@[simp] theorem moved_style (shift : Nat) (comment : Comment) :
    (comment.moved shift).style = comment.style := rfl

@[simp] theorem moved_start (shift : Nat) (comment : Comment) :
    (comment.moved shift).start = shift + comment.start := rfl

@[simp] theorem moved_text (shift : Nat) (comment : Comment) :
    (comment.moved shift).text = comment.text := rfl

@[simp] theorem moved_stop (shift : Nat) (comment : Comment) :
    (comment.moved shift).stop = shift + comment.stop := by
  simp only [stop, span, content, moved]
  omega

/-! ## Scans of parts of a text -/

/-- The lines on either side of a line feed are scanned on their own. -/
theorem scanFrom_line_append (position : Nat) (left right : Text) :
    scanFrom .line position (left ++ '\n' :: right) =
      scanFrom .line position left ++ scanFrom .line (position + left.length + 1) right := by
  have hlines : ∀ (position : Nat) (lines more : List Text), ofLines position (lines ++ more) =
      ofLines position lines ++ ofLines (position + extent lines) more := by
    intro position lines more
    induction lines generalizing position with
    | nil => simp [ofLines, extent]
    | cons line rest ih =>
      simp only [List.cons_append, ofLines, ih, extent, List.append_assoc, Nat.add_assoc]
  rw [scanFrom, pieces, cut_append_cons, hlines, extent_cut, ← Nat.add_assoc]
  rfl

/-- A text without line feeds is one line. -/
theorem scanFrom_line_of_not_mem {position : Nat} {line : Text} (h : '\n' ∉ line) :
    scanFrom .line position line = (ofLine? position line).toList := by
  rw [scanFrom, pieces, cut_of_not_mem h, ofLines, ofLines, List.append_nil]

/-- A line up to its end is scanned apart from what follows it. -/
theorem scanFrom_line_ends {position : Nat} {line rest : Text} (hline : '\n' ∉ line)
    (hrest : rest = [] ∨ ∃ behind, rest = '\n' :: behind) :
    scanFrom .line position (line ++ rest) =
      (ofLine? position line).toList ++ scanFrom .line (position + line.length) rest := by
  have hnil : ∀ position, scanFrom .line position [] = [] := fun _ => rfl
  rcases hrest with rfl | ⟨behind, rfl⟩
  · rw [List.append_nil, scanFrom_line_of_not_mem hline, hnil, List.append_nil]
  · have hfeed := scanFrom_line_append (position + line.length) [] behind
    rw [List.nil_append, hnil, List.nil_append] at hfeed
    rw [scanFrom_line_append, scanFrom_line_of_not_mem hline, hfeed]
    rfl

/-- One step of scanning for block comments. -/
private theorem blocks_eq (position : Nat) (text : Text) :
    blocks position text =
      match find? ['/', '*'] text with
      | none => []
      | some before =>
        match find? ['*', '/'] (text.drop (before + 2)) with
        | none => []
        | some length =>
          ofInterior (position + before) ((text.drop (before + 2)).take length) ::
            blocks (position + before + length + 4)
              ((text.drop (before + 2)).drop (length + 2)) := by
  rw [blocks]
  split
  · next h => simp only [h]
  · next before h =>
    cases hclose : find? ['*', '/'] (text.drop (before + 2)) with
    | none => simp only [h, hclose]
    | some length => simp only [h, hclose]

/-- A block comment behind a text without slash-stars is the first one. -/
theorem blocks_append {position : Nat} {before rest : Text} {parts : Parts}
    (hbefore : ¬ ['/', '*'] <:+: before) (hparts : parts.IsBlock) :
    blocks position (before ++ parts.text ++ rest) =
      parts.comment (position + before.length) ::
        blocks (position + before.length + parts.text.length) rest := by
  obtain ⟨interior, rfl, hinterior⟩ := hparts.exists_interior
  have htext : before ++ (Parts.ofInterior interior).text ++ rest =
      before ++ '/' :: '*' :: (interior ++ '*' :: '/' :: rest) := by
    simp [Parts.text_ofInterior]
  have hinside : (before ++ '/' :: '*' :: (interior ++ '*' :: '/' :: rest)).drop
      (before.length + 2) = interior ++ '*' :: '/' :: rest := by
    rw [List.drop_length_add_append]
    rfl
  have hrest : (interior ++ '*' :: '/' :: rest).drop (interior.length + 2) = rest := by
    rw [List.drop_length_add_append]
    rfl
  have hlen : position + before.length + interior.length + 4 =
      position + before.length + (Parts.ofInterior interior).text.length := by
    simp only [Parts.text_ofInterior, List.length_append, List.length_cons, List.length_nil]
    omega
  have hopen := find?_pair_append (interior ++ '*' :: '/' :: rest) (by decide) hbefore
  have hclose := find?_pair_append rest (by decide) hinterior
  rw [htext, blocks_eq, hopen]
  simp only [hinside, hclose]
  rw [List.take_left, hrest, hlen, ofInterior_eq]

private theorem blocks_append_of_not {front : Text} (position : Nat) (text : Text)
    (hfree : ¬ ['/', '*'] <:+: front) (hlast : front.getLast? ≠ some '/') :
    blocks position (front ++ text) = blocks (position + front.length) text := by
  have hopen := find?_pair_append_of_not text hfree hlast
  rw [blocks_eq, blocks_eq, hopen]
  cases find? ['/', '*'] text with
  | none => rfl
  | some before =>
    have hdrop : (front ++ text).drop (front.length + before + 2) = text.drop (before + 2) := by
      rw [Nat.add_assoc, List.drop_length_add_append]
    simp only [Option.map_some, hdrop]
    simp only [Nat.add_assoc]

/-- Whole lines are scanned apart from what follows them, unless a block comment may begin in
them. -/
theorem scanFrom_append {style : Style} {front : Text} (position : Nat) (text : Text)
    (hfront : EndsIn '\n' front) (hmark : style = .block → ¬ Style.block.mark <:+: front) :
    scanFrom style position (front ++ text) =
      scanFrom style position front ++ scanFrom style (position + front.length) text := by
  rcases hfront.eq_nil_or_concat with rfl | ⟨lines, rfl⟩
  · cases style with
    | line => rfl
    | block => rw [scanFrom, scanFrom, blocks_eq position [], find?_nil]; rfl
  · cases style with
    | line =>
      have hnil : scanFrom .line (position + lines.length + 1) [] = [] := rfl
      rw [List.append_assoc, List.singleton_append, scanFrom_line_append, scanFrom_line_append,
        hnil, List.append_nil, List.length_append]
      rfl
    | block =>
      have hfree : ¬ ['/', '*'] <:+: lines ++ ['\n'] := hmark rfl
      have hlast : (lines ++ ['\n']).getLast? ≠ some '/' := by simp
      have hnone : scanFrom .block position (lines ++ ['\n']) = [] := by
        rw [scanFrom, blocks_eq, find?_eq_none_iff.mpr hfree]
      rw [hnone, List.nil_append]
      exact blocks_append_of_not position text hfree hlast

/-! ## The first comment and the others -/

/-- The text up to the end of its first comment of a style, and the rest, which is scanned next. -/
def FirstIn (style : Style) (position : Nat) (text : Text) : Prop :=
  ∃ (before : Text) (parts : Parts) (rest : Text), text = before ++ parts.text ++ rest ∧
    parts.IsWhole ∧ parts.style = style ∧ ¬ style.mark <:+: before ∧
    scanFrom style position text = parts.comment (position + before.length) ::
      scanFrom style (position + before.length + parts.text.length) rest

/-- A text opens no block comment, or it opens one that is not closed, or it begins with a first
block comment behind a text that opens none. -/
theorem blocks_cases (position : Nat) (text : Text) :
    (¬ ['/', '*'] <:+: text ∧ blocks position text = []) ∨
    (∃ before inside, text = before ++ ['/', '*'] ++ inside ∧ ¬ ['/', '*'] <:+: before ∧
      ¬ ['*', '/'] <:+: inside ∧ blocks position text = []) ∨
    ∃ before interior rest, text = before ++ (Parts.ofInterior interior).text ++ rest ∧
      ¬ ['/', '*'] <:+: before ∧ ¬ ['*', '/'] <:+: interior ∧
      blocks position text = (Parts.ofInterior interior).comment (position + before.length) ::
        blocks (position + before.length + (Parts.ofInterior interior).text.length) rest := by
  cases hopen : find? ['/', '*'] text with
  | none => exact Or.inl ⟨find?_eq_none_iff.mp hopen, by rw [blocks_eq, hopen]⟩
  | some found =>
    obtain ⟨before, inside, rfl, rfl, hbefore⟩ := find?_pair_eq_some hopen
    have hdrop : (before ++ '/' :: '*' :: inside).drop (before.length + 2) = inside := by
      rw [List.drop_length_add_append]
      rfl
    cases hclose : find? ['*', '/'] inside with
    | none =>
      refine Or.inr (Or.inl ⟨before, inside, by simp, hbefore, find?_eq_none_iff.mp hclose, ?_⟩)
      simp only [blocks_eq, hopen, hdrop, hclose]
    | some length =>
      obtain ⟨interior, rest, rfl, -, hinterior⟩ := find?_pair_eq_some hclose
      have htext : before ++ '/' :: '*' :: (interior ++ '*' :: '/' :: rest) =
          before ++ (Parts.ofInterior interior).text ++ rest := by
        simp [Parts.text_ofInterior]
      refine Or.inr (Or.inr ⟨before, interior, rest, htext, hbefore, hinterior, ?_⟩)
      rw [htext]
      exact blocks_append hbefore (Parts.isBlock_ofInterior hinterior)

private theorem firstIn_block (position : Nat) (text : Text) :
    scanFrom .block position text = [] ∨ FirstIn .block position text := by
  rcases blocks_cases position text with ⟨-, hnil⟩ | ⟨before, inside, -, -, -, hnil⟩ |
    ⟨before, interior, rest, htext, hbefore, hinterior, hblocks⟩
  · exact Or.inl hnil
  · exact Or.inl hnil
  · exact Or.inr ⟨before, _, rest, htext, Or.inr (Parts.isBlock_ofInterior hinterior), rfl, hbefore,
      hblocks⟩

/-- The comment of a line is the first one of a text that begins with the line. -/
private theorem firstIn_of_ofLine? {position : Nat} {line rest : Text} {comment : Comment}
    (hfound : ofLine? position line = some comment) (hline : '\n' ∉ line)
    (hrest : rest = [] ∨ ∃ behind, rest = '\n' :: behind) :
    FirstIn .line position (line ++ rest) := by
  have hscan := @scanFrom_line_ends position _ _ hline hrest
  rw [hfound] at hscan
  obtain ⟨before, parts, tail, rfl, hparts, rfl, htail, hbefore⟩ :=
    exists_parts_of_ofLine? hfound hline
  have htailFeed : '\n' ∉ tail := fun h => hline (List.mem_append_right _ h)
  refine ⟨before, parts, tail ++ rest, by rw [List.append_assoc], Or.inl hparts, hparts.style_eq,
    ?_, ?_⟩
  · exact fun h => hbefore (h.trans (List.prefix_append _ _).isInfix)
  · rw [hscan, scanFrom_line_ends htailFeed hrest, ofLine?_of_isLineEnd htail]
    simp only [Option.toList_some, Option.toList_none, List.nil_append, List.singleton_append,
      List.length_append, Nat.add_assoc]

private theorem firstIn_line (position : Nat) (text : Text) :
    scanFrom .line position text = [] ∨ FirstIn .line position text := by
  induction text using line_induction generalizing position with
  | last line hline =>
    cases hfound : ofLine? position line with
    | none => exact Or.inl (by rw [scanFrom_line_of_not_mem hline, hfound]; rfl)
    | some comment =>
      have hfirst := firstIn_of_ofLine? hfound hline (Or.inl rfl)
      rw [List.append_nil] at hfirst
      exact Or.inr hfirst
  | step line rest hline ih =>
    cases hfound : ofLine? position line with
    | some comment => exact Or.inr (firstIn_of_ofLine? hfound hline (Or.inr ⟨rest, rfl⟩))
    | none =>
      -- The first comment stands on a later line, with this line in front of it.
      rw [scanFrom_line_append, scanFrom_line_of_not_mem hline, hfound]
      rcases ih (position + line.length + 1) with h | ⟨before, parts, after, rfl, hparts, hstyle,
        hbefore, hscan⟩
      · exact Or.inl (by rw [h]; rfl)
      · refine Or.inr ⟨line ++ '\n' :: before, parts, after, by simp, hparts, hstyle, ?_, ?_⟩
        · have hfree := ofLine?_eq_none_iff.mp hfound
          change ¬ ['/', '/'] <:+: line ++ (['\n'] ++ before)
          rw [pair_infix_append, pair_infix_append]
          rintro (h | (h | h | ⟨h, -⟩) | ⟨-, h⟩)
          · exact hfree h
          · simpa using h.length_le
          · exact hbefore h
          · simp at h
          · simp at h
        · rw [scanFrom_line_append, scanFrom_line_of_not_mem hline, hfound, hscan,
            List.length_append, List.length_cons]
          simp only [Option.toList_none, List.nil_append, Nat.add_assoc, Nat.add_comm 1]

/-- A scan yields nothing, or a first comment and the scan of what follows it. -/
theorem scanFrom_eq_nil_or_firstIn (style : Style) (position : Nat) (text : Text) :
    scanFrom style position text = [] ∨ FirstIn style position text := by
  cases style with
  | line => exact firstIn_line position text
  | block => exact firstIn_block position text

/-- A text in which the mark of a style does not occur has no comments of the style. -/
theorem scanFrom_eq_nil {style : Style} {position : Nat} {text : Text}
    (h : ¬ style.mark <:+: text) : scanFrom style position text = [] := by
  rcases scanFrom_eq_nil_or_firstIn style position text with hnil |
    ⟨before, parts, rest, rfl, hparts, rfl, -, -⟩
  · exact hnil
  · refine absurd ?_ h
    rw [List.append_assoc]
    exact (hparts.mark_isPrefix.isInfix.trans (List.prefix_append _ _).isInfix).trans
      (List.suffix_append _ _).isInfix

/-- Any comment of a scan is written in the text, no earlier than the comments before it end, and
the comments behind it are those of a scan that begins where it ends. -/
theorem exists_parts_of_scanFrom {style : Style} {position : Nat} {text : Text}
    {earlier later : List Comment} {comment : Comment}
    (h : scanFrom style position text = earlier ++ comment :: later) :
    ∃ (before : Text) (parts : Parts) (rest : Text), text = before ++ parts.text ++ rest ∧
      parts.IsWhole ∧ parts.style = style ∧ comment = parts.comment (position + before.length) ∧
      later = scanFrom style comment.stop rest ∧ ∀ other ∈ earlier, other.stop ≤ comment.start := by
  induction earlier generalizing position text with
  | nil =>
    rcases scanFrom_eq_nil_or_firstIn style position text with hnil |
      ⟨before, parts, rest, rfl, hparts, hstyle, -, hscan⟩
    · simp [hnil] at h
    · obtain ⟨rfl, rfl⟩ := List.cons.inj (hscan.symm.trans h)
      refine ⟨before, parts, rest, rfl, hparts, hstyle, rfl, ?_, by simp⟩
      rw [Parts.comment_stop]
  | cons first earlier ih =>
    rcases scanFrom_eq_nil_or_firstIn style position text with hnil |
      ⟨before, parts, rest, rfl, hparts, hstyle, -, hscan⟩
    · simp [hnil] at h
    · obtain ⟨rfl, hrest⟩ := List.cons.inj (hscan.symm.trans h)
      obtain ⟨between, found, after, rfl, hfound, hfoundStyle, rfl, hlater, hearlier⟩ := ih hrest
      refine ⟨before ++ parts.text ++ between, found, after, by simp, hfound, hfoundStyle, ?_,
        hlater, ?_⟩
      · simp only [List.length_append, Nat.add_assoc]
      · intro other hother
        rcases List.mem_cons.mp hother with rfl | hother
        · rw [Parts.comment_stop, Parts.comment_start]
          omega
        · exact hearlier other hother

/-- What a comment says stands in the text that was scanned. -/
theorem text_isInfix_of_mem_scanFrom {style : Style} {position : Nat} {text : Text}
    {comment : Comment} (h : comment ∈ scanFrom style position text) : comment.text <:+: text := by
  obtain ⟨earlier, later, hscan⟩ := List.append_of_mem h
  obtain ⟨before, parts, rest, rfl, -, -, rfl, -⟩ := exists_parts_of_scanFrom hscan
  rw [List.append_assoc]
  exact parts.content_isInfix.trans
    ((List.prefix_append _ _).isInfix.trans (List.suffix_append _ _).isInfix)

/-! ## Moving a text -/

theorem ofLine?_add (shift position : Nat) (line : Text) :
    ofLine? (shift + position) line = (ofLine? position line).map (moved shift) := by
  simp only [ofLine?, Option.map_map]
  congr 1
  funext before
  simp only [Function.comp_apply, moved, Nat.add_assoc]

private theorem ofLines_add (shift position : Nat) (lines : List Text) :
    ofLines (shift + position) lines = (ofLines position lines).map (moved shift) := by
  induction lines generalizing position with
  | nil => rfl
  | cons line rest ih =>
    rw [ofLines, ofLines, List.map_append, ofLine?_add, ← ih]
    cases ofLine? position line <;> simp [Nat.add_assoc]

private theorem blocks_add (shift position : Nat) (text : Text) :
    blocks (shift + position) text = (blocks position text).map (moved shift) := by
  fun_induction blocks position text with
  | case1 position text hopen => rw [blocks_eq, hopen, List.map_nil]
  | case2 position text before hopen inside hclose =>
    simp only [inside] at hclose
    simp only [blocks_eq (shift + position), hopen, hclose, List.map_nil]
  | case3 position text before hopen inside length hclose ih =>
    simp only [inside] at hclose ih ⊢
    simp only [blocks_eq (shift + position), hopen, hclose, List.map_cons, ← ih]
    simp only [ofInterior, moved, Nat.add_assoc]

/-- Where a text stands only moves its comments. -/
theorem scanFrom_add (style : Style) (shift position : Nat) (text : Text) :
    scanFrom style (shift + position) text = (scanFrom style position text).map (moved shift) := by
  cases style with
  | line => exact ofLines_add shift position (pieces text)
  | block => exact blocks_add shift position text

/-! ## Scans from a position -/

/-- Any comment of a scan is written in the text behind the scan's start, no earlier than the
comments before it end, and the comments behind it are those of a scan from its end. -/
theorem exists_parts_of_scan {text : Text} {start : Nat} {style : Style}
    {earlier later : List Comment} {comment : Comment}
    (h : scan text start style = earlier ++ comment :: later) :
    ∃ (before : Text) (parts : Parts) (rest : Text), text = before ++ parts.text ++ rest ∧
      parts.IsWhole ∧ parts.style = style ∧ comment = parts.comment before.length ∧
      min start text.length ≤ before.length ∧ later = scan text comment.stop style ∧
      ∀ other ∈ earlier, other.stop ≤ comment.start := by
  obtain ⟨before, parts, rest, hsplit, hparts, hstyle, hcomment, hlater, hearlier⟩ :=
    exists_parts_of_scanFrom h
  have htext : text = text.take start ++ before ++ parts.text ++ rest := by
    rw [List.append_assoc, List.append_assoc, ← List.append_assoc before, ← hsplit,
      List.take_append_drop]
  have hlen : (text.take start ++ before).length = min start text.length + before.length := by
    rw [List.length_append, List.length_take]
  refine ⟨text.take start ++ before, parts, rest, htext, hparts, hstyle, ?_, ?_, ?_, hearlier⟩
  · rw [hcomment, hlen]
  · omega
  · have hstop : comment.stop = (text.take start ++ before ++ parts.text).length := by
      rw [hcomment, Parts.comment_stop, List.length_append, hlen]
    have hrest : text.drop comment.stop = rest := by
      rw [hstop]
      exact drop_of_eq_append htext
    have hmin : min comment.stop text.length = comment.stop := by
      have := congrArg List.length htext
      rw [List.length_append] at this
      omega
    rw [scan, hrest, hmin, hlater]

/-- Any comment of a scan is written in the text behind the scan's start. -/
theorem exists_parts_of_mem_scan {text : Text} {start : Nat} {style : Style} {comment : Comment}
    (h : comment ∈ scan text start style) :
    ∃ (before : Text) (parts : Parts) (rest : Text), text = before ++ parts.text ++ rest ∧
      parts.IsWhole ∧ parts.style = style ∧ comment = parts.comment before.length ∧
      min start text.length ≤ before.length := by
  obtain ⟨earlier, later, hscan⟩ := List.append_of_mem h
  obtain ⟨before, parts, rest, hsplit, hparts, hstyle, hcomment, hle, -⟩ :=
    exists_parts_of_scan hscan
  exact ⟨before, parts, rest, hsplit, hparts, hstyle, hcomment, hle⟩

theorem text_isInfix_of_mem_scan {text : Text} {start : Nat} {style : Style} {comment : Comment}
    (h : comment ∈ scan text start style) : comment.text <:+: text :=
  (text_isInfix_of_mem_scanFrom h).trans (List.drop_suffix start text).isInfix

theorem style_of_mem_scan {text : Text} {start : Nat} {style : Style} {comment : Comment}
    (h : comment ∈ scan text start style) : comment.style = style := by
  obtain ⟨-, parts, -, -, -, hstyle, rfl, -⟩ := exists_parts_of_mem_scan h
  exact hstyle

/-- The comments of a scan follow each other without overlap. -/
theorem stop_le_start {text : Text} {start : Nat} {style : Style} {earlier later : List Comment}
    {comment other : Comment} (h : scan text start style = earlier ++ comment :: later)
    (hother : other ∈ later) : comment.stop ≤ other.start := by
  obtain ⟨front, back, rfl⟩ := List.append_of_mem hother
  rw [← List.cons_append, ← List.append_assoc] at h
  obtain ⟨-, -, -, -, -, -, -, -, -, hearlier⟩ := exists_parts_of_scan h
  exact hearlier comment (by simp)

/-- Comments that begin at the same position are of the same style. -/
theorem style_eq_of_start_eq {text : Text} {start start' : Nat} {style style' : Style}
    {comment other : Comment} (hmem : comment ∈ scan text start style)
    (hother : other ∈ scan text start' style') (hstart : comment.start = other.start) :
    style = style' := by
  obtain ⟨before, parts, rest, htext, hparts, rfl, rfl, -⟩ := exists_parts_of_mem_scan hmem
  obtain ⟨before', parts', rest', htext', hparts', rfl, rfl, -⟩ := exists_parts_of_mem_scan hother
  simp only [Parts.comment_start] at hstart
  rw [List.append_assoc] at htext htext'
  have hsame : parts.text ++ rest = parts'.text ++ rest' := by
    rw [← drop_of_eq_append htext, ← drop_of_eq_append htext', hstart]
  have hmark : parts.style.mark <+: parts.text ++ rest :=
    hparts.mark_isPrefix.trans (List.prefix_append _ _)
  have hmark' : parts'.style.mark <+: parts.text ++ rest :=
    hsame ▸ hparts'.mark_isPrefix.trans (List.prefix_append _ _)
  have hlen : ∀ style : Style, style.mark.length = 2 := by
    intro style
    cases style <;> rfl
  have hpre := List.prefix_of_prefix_length_le hmark hmark' (by rw [hlen, hlen])
  have heq := hpre.eq_of_length (by rw [hlen, hlen])
  cases hs : parts.style <;> cases hs' : parts'.style <;> simp_all [Style.mark]

/-- A text in front only moves the comments of a scan that begins behind it. -/
theorem scan_append_add (front text : Text) (start : Nat) (style : Style) :
    scan (front ++ text) (front.length + start) style =
      (scan text start style).map (moved front.length) := by
  have hmin : min (front.length + start) (front ++ text).length =
      front.length + min start text.length := by
    rw [List.length_append]
    omega
  rw [scan, scan, hmin, List.drop_length_add_append, scanFrom_add]

/-- Whole lines that begin a text are scanned apart from what follows them, unless a block comment
may begin in them. -/
theorem scan_append {style : Style} {front : Text} (text : Text) (hfront : EndsIn '\n' front)
    (hmark : style = .block → ¬ Style.block.mark <:+: front) :
    scan (front ++ text) 0 style = scan front 0 style ++ scan (front ++ text) front.length style := by
  have hmin : min front.length (front ++ text).length = front.length := by
    rw [List.length_append]
    omega
  rw [scan, scan, scan, hmin, List.drop_left, Nat.zero_min, Nat.zero_min, List.drop_zero,
    List.drop_zero, scanFrom_append 0 text hfront hmark, Nat.zero_add]

end Stencil.Comment
