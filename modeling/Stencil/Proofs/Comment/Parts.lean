import Stencil.Comment.Range
import Stencil.Proofs.Text.Lines
import Stencil.Proofs.Text.Runs
import Stencil.Proofs.Text.Search

/-!
# The parts of a comment

A comment is written as an opener, whitespace, the visible content and whatever follows the content
up to the comment's end. The scanner recovers exactly these parts: a line yields its comment and
nothing else, and so does the inside of a block comment.
-/

namespace Stencil

/-- The pair of characters with which the comments of a style begin. -/
def Style.mark : Style → Text
  | .line => ['/', '/']
  | .block => ['/', '*']

namespace Comment

open Text

/-- The texts that make up a comment. -/
structure Parts where
  style : Style
  /-- The slashes of a line comment, or the slash-star. -/
  opener : Text
  /-- The whitespace in front of the content. -/
  lead : Text
  content : Text
  /-- What follows the content: nothing, or whitespace and the star-slash. -/
  trail : Text

/-- A run of at least two slashes begins with two slashes. -/
theorem exists_of_two_slashes {slashes : Text} (htwo : 2 ≤ slashes.length)
    (hslashes : ∀ c ∈ slashes, c = '/') : ∃ more, slashes = ['/', '/'] ++ more := by
  match slashes, htwo with
  | a :: b :: more, _ =>
    obtain rfl : a = '/' := hslashes a (by simp)
    obtain rfl : b = '/' := hslashes b (by simp)
    exact ⟨more, rfl⟩

namespace Parts

/-- The whole comment. -/
def text (parts : Parts) : Text := parts.opener ++ parts.lead ++ parts.content ++ parts.trail

/-- The comment that the parts are when they stand at a position. -/
def comment (parts : Parts) (start : Nat) : Comment :=
  { style := parts.style
    start
    opener := parts.opener.length
    lead := parts.lead.length
    text := parts.content
    trail := parts.trail.length }

/-- The parts are those of a line comment without the whitespace that ends its line. -/
structure IsLine (parts : Parts) : Prop where
  style_eq : parts.style = .line
  two_le : 2 ≤ parts.opener.length
  slashes : ∀ c ∈ parts.opener, c = '/'
  blanks : ∀ c ∈ parts.lead, isBlank c = true
  /-- The opener is the whole run of slashes. -/
  run : ∀ c ∈ (parts.lead ++ parts.content).head?, c ≠ '/'
  head : ∀ c ∈ parts.content.head?, isBlank c = false
  last : ∀ c ∈ parts.content.getLast?, isLineEnd c = false
  /-- Whitespace that no content follows belongs to the end of the line. -/
  lead_nil : parts.content = [] → parts.lead = []
  one_line : '\n' ∉ parts.content
  trail_nil : parts.trail = []

/-- The parts are those of a block comment, from its slash-star to its star-slash. -/
structure IsBlock (parts : Parts) : Prop where
  style_eq : parts.style = .block
  opener_eq : parts.opener = ['/', '*']
  spaces : ∀ c ∈ parts.lead, isAsciiSpace c = true
  head : ∀ c ∈ parts.content.head?, isAsciiSpace c = false
  last : ∀ c ∈ parts.content.getLast?, isAsciiSpace c = false
  /-- The star-slash is the first one behind the slash-star. -/
  closer : ∃ after, parts.trail = after ++ ['*', '/'] ∧ (∀ c ∈ after, isAsciiSpace c = true) ∧
    (parts.content = [] → after = []) ∧
    ¬ ['*', '/'] <:+: parts.lead ++ parts.content ++ after

/-- The parts are those of one comment of their style. -/
def IsWhole (parts : Parts) : Prop := parts.IsLine ∨ parts.IsBlock

theorem length_text (parts : Parts) : parts.text.length =
    parts.opener.length + parts.lead.length + parts.content.length + parts.trail.length := by
  simp only [text, List.length_append]

@[simp] theorem comment_style (parts : Parts) (start : Nat) :
    (parts.comment start).style = parts.style := rfl

@[simp] theorem comment_start (parts : Parts) (start : Nat) :
    (parts.comment start).start = start := rfl

@[simp] theorem comment_text (parts : Parts) (start : Nat) :
    (parts.comment start).text = parts.content := rfl

@[simp] theorem comment_stop (parts : Parts) (start : Nat) :
    (parts.comment start).stop = start + parts.text.length := by
  rw [length_text]
  simp only [Comment.stop, span, Comment.content, comment]
  omega

theorem content_isInfix (parts : Parts) : parts.content <:+: parts.text :=
  ⟨parts.opener ++ parts.lead, parts.trail, rfl⟩

/-- A comment begins with the mark of its style. -/
theorem IsWhole.mark_isPrefix {parts : Parts} (h : parts.IsWhole) :
    parts.style.mark <+: parts.text := by
  rcases h with h | h
  · obtain ⟨more, hopener⟩ := exists_of_two_slashes h.two_le h.slashes
    rw [h.style_eq, text, hopener]
    exact ⟨more ++ parts.lead ++ parts.content ++ parts.trail, by simp [Style.mark]⟩
  · rw [h.style_eq, text, h.opener_eq]
    exact ⟨parts.lead ++ parts.content ++ parts.trail, by simp [Style.mark]⟩

/-- A comment of either style begins with a slash. -/
theorem IsWhole.exists_slash {parts : Parts} (h : parts.IsWhole) :
    ∃ more, parts.text = '/' :: more := by
  obtain ⟨more, hmore⟩ := h.mark_isPrefix
  cases hstyle : parts.style with
  | line => exact ⟨'/' :: more, by rw [← hmore, hstyle]; rfl⟩
  | block => exact ⟨'*' :: more, by rw [← hmore, hstyle]; rfl⟩

/-- The opener of a comment of either style stays on its line. -/
theorem IsWhole.feed_not_mem_opener {parts : Parts} (h : parts.IsWhole) : '\n' ∉ parts.opener := by
  rcases h with h | h
  · exact fun hmem => absurd (h.slashes '\n' hmem) (by decide)
  · rw [h.opener_eq]
    decide

/-- A line comment stays on its line. -/
theorem IsLine.feed_not_mem {parts : Parts} (h : parts.IsLine) : '\n' ∉ parts.text := by
  rw [text, h.trail_nil, List.append_nil, List.mem_append, List.mem_append]
  rintro ((hmem | hmem) | hmem)
  · exact absurd (h.slashes '\n' hmem) (by decide)
  · exact absurd (h.blanks '\n' hmem) (by decide)
  · exact h.one_line hmem

end Parts

theorem isLineEnd_of_isBlank {c : Char} (h : isBlank c = true) : isLineEnd c = true := by
  simp [isLineEnd, h]

theorem isLineEnd_slash : isLineEnd '/' = false := by decide

/-- A line has a comment exactly where it holds two slashes in a row. -/
theorem ofLine?_eq_none_iff {position : Nat} {line : Text} :
    ofLine? position line = none ↔ ¬ ['/', '/'] <:+: line := by
  rw [ofLine?, Option.map_eq_none_iff, find?_eq_none_iff]

/-- What may end a line after its comment holds no comment. -/
theorem ofLine?_of_isLineEnd {position : Nat} {tail : Text}
    (h : ∀ c ∈ tail, isLineEnd c = true) : ofLine? position tail = none := by
  rw [ofLine?_eq_none_iff]
  intro hslashes
  have := h '/' (hslashes.subset (by simp))
  rw [isLineEnd_slash] at this
  exact Bool.false_ne_true this

/-- The parts of the comment that a run of slashes opens on a line that goes on with `rest`. -/
def Parts.ofSlashes (slashes rest : Text) : Parts :=
  { style := .line
    opener := slashes
    lead := (trimEnd isLineEnd rest).takeWhile isBlank
    content := (trimEnd isLineEnd rest).dropWhile isBlank
    trail := [] }

/-- The first run of slashes that is long enough opens the comment of a line. -/
theorem ofLine?_slashes {position : Nat} {before slashes rest : Text}
    (hbefore : ¬ ['/', '/'] <:+: before ++ ['/']) (htwo : 2 ≤ slashes.length)
    (hslashes : ∀ c ∈ slashes, c = '/') (hrest : ∀ c ∈ rest.head?, c ≠ '/') :
    ofLine? position (before ++ (slashes ++ rest)) =
      some ((Parts.ofSlashes slashes rest).comment (position + before.length)) := by
  obtain ⟨more, hopener⟩ := exists_of_two_slashes htwo hslashes
  have hfind : find? ['/', '/'] (before ++ (slashes ++ rest)) = some before.length := by
    rw [hopener, List.append_assoc ['/', '/'], ← List.append_assoc before]
    exact find?_append (by decide) hbefore
  have hrun : (slashes ++ rest).takeWhile (· == '/') = slashes :=
    takeWhile_run (by simpa using hslashes) (by simpa using hrest)
  simp only [ofLine?, hfind, Option.map_some, List.drop_left, hrun, List.drop_length_add_append]
  rfl

/-- The parts that are read off a line are those of a line comment. -/
theorem Parts.isLine_ofSlashes {slashes rest : Text} (htwo : 2 ≤ slashes.length)
    (hslashes : ∀ c ∈ slashes, c = '/') (hrest : ∀ c ∈ rest.head?, c ≠ '/')
    (hline : '\n' ∉ rest) : (Parts.ofSlashes slashes rest).IsLine := by
  obtain ⟨tail, hsplit, htail, hlast⟩ := exists_eq_trimEnd_append isLineEnd rest
  have hlead := List.takeWhile_append_dropWhile (p := isBlank) (l := trimEnd isLineEnd rest)
  refine ⟨rfl, htwo, hslashes, fun c hc => List.mem_takeWhile_imp hc, ?_, head?_dropWhile, ?_, ?_,
    ?_, rfl⟩
  · simp only [ofSlashes, hlead]
    intro c hc
    apply hrest
    rw [hsplit, List.head?_append, Option.mem_def.mp hc]
    rfl
  · simp only [ofSlashes]
    intro c hc
    apply hlast
    rw [← hlead, List.getLast?_append, Option.mem_def.mp hc]
    rfl
  · simp only [ofSlashes]
    -- Nothing but blanks would end the visible text, and its last character ends no line.
    intro hnil
    rw [hnil, List.append_nil] at hlead
    rw [hlead]
    by_contra hne
    obtain ⟨c, hc⟩ := Option.isSome_iff_exists.mp (List.getLast?_isSome.mpr hne)
    have hblank : isBlank c = true := by
      have hmem := List.mem_of_getLast? hc
      rw [← hlead] at hmem
      exact List.mem_takeWhile_imp hmem
    have hend := hlast c hc
    rw [isLineEnd_of_isBlank hblank] at hend
    exact Bool.false_ne_true hend.symm
  · intro hmem
    apply hline
    rw [hsplit, ← hlead]
    exact List.mem_append_left _ (List.mem_append_right _ hmem)

/-- The slashes of a line comment end in front of its content and of the rest of its line. -/
theorem Parts.IsLine.head?_ne_slash {tail : Text} {parts : Parts} (hparts : parts.IsLine)
    (htail : ∀ c ∈ tail, isLineEnd c = true) :
    ∀ c ∈ (parts.lead ++ parts.content ++ tail).head?, c ≠ '/' := by
  intro c hc
  rw [List.head?_append] at hc
  cases hfirst : (parts.lead ++ parts.content).head? with
  | none =>
    rw [hfirst, Option.none_or] at hc
    rintro rfl
    exact absurd (htail '/' (List.mem_of_mem_head? hc)) (by simp [isLineEnd_slash])
  | some d =>
    rw [hfirst, Option.some_or] at hc
    obtain rfl := Option.some.inj hc
    exact hparts.run d hfirst

/-- A line comment that is written on a line is the comment of the line. -/
theorem ofLine?_append {position : Nat} {before tail : Text} {parts : Parts}
    (hparts : parts.IsLine) (hbefore : ¬ ['/', '/'] <:+: before ++ ['/'])
    (htail : ∀ c ∈ tail, isLineEnd c = true) :
    ofLine? position (before ++ parts.text ++ tail) =
      some (parts.comment (position + before.length)) := by
  have hstop := hparts.head?_ne_slash htail
  obtain ⟨style, opener, lead, content, trail⟩ := parts
  obtain ⟨hstyle, htwo, hslashes, hblanks, -, hhead, hlast, hnil, -, htrail⟩ := hparts
  simp only at hstyle htwo hslashes hblanks hhead hlast hnil htrail hstop
  subst hstyle htrail
  have hbody : ∀ c ∈ (lead ++ content).getLast?, isLineEnd c = false := by
    rw [List.getLast?_append]
    cases hcontent : content.getLast? with
    | none => simp [hnil (List.getLast?_eq_none_iff.mp hcontent)]
    | some c => simpa using hlast c hcontent
  have hline : before ++ (Parts.mk .line opener lead content []).text ++ tail =
      before ++ (opener ++ (lead ++ content ++ tail)) := by simp [Parts.text]
  rw [hline, ofLine?_slashes hbefore htwo hslashes hstop, Parts.ofSlashes,
    trimEnd_append htail hbody, takeWhile_run hblanks hhead, dropWhile_run hblanks hhead]

/-- The comment of a line is written on the line, and only whitespace follows it there. -/
theorem exists_parts_of_ofLine? {position : Nat} {line : Text} {comment : Comment}
    (h : ofLine? position line = some comment) (hline : '\n' ∉ line) :
    ∃ (before : Text) (parts : Parts) (tail : Text), line = before ++ parts.text ++ tail ∧
      parts.IsLine ∧ comment = parts.comment (position + before.length) ∧
      (∀ c ∈ tail, isLineEnd c = true) ∧ ¬ ['/', '/'] <:+: before ++ ['/'] := by
  obtain ⟨found, hfind, -⟩ := Option.map_eq_some_iff.mp h
  obtain ⟨before, after, rfl, -, hbefore⟩ := find?_eq_some hfind
  have hsplit := List.takeWhile_append_dropWhile (p := (· == '/')) (l := ['/', '/'] ++ after)
  have hrest : ∀ c ∈ ((['/', '/'] ++ after).dropWhile (· == '/')).head?, c ≠ '/' := by
    intro c hc
    simpa using head?_dropWhile c hc
  have hslashes : ∀ c ∈ (['/', '/'] ++ after).takeWhile (· == '/'), c = '/' := by
    intro c hc
    simpa using List.mem_takeWhile_imp hc
  have htwo : 2 ≤ ((['/', '/'] ++ after).takeWhile (· == '/')).length := by simp
  rw [List.append_assoc, ← hsplit] at h hline ⊢
  generalize (['/', '/'] ++ after).takeWhile (· == '/') = slashes at *
  generalize (['/', '/'] ++ after).dropWhile (· == '/') = rest at *
  rw [ofLine?_slashes hbefore htwo hslashes hrest] at h
  obtain ⟨tail, htrim, htail, -⟩ := exists_eq_trimEnd_append isLineEnd rest
  have hone : '\n' ∉ rest := fun hmem =>
    hline (List.mem_append_right _ (List.mem_append_right _ hmem))
  refine ⟨before, Parts.ofSlashes slashes rest, tail, ?_,
    Parts.isLine_ofSlashes htwo hslashes hrest hone, (Option.some.inj h).symm, htail, hbefore⟩
  rw [Parts.text, Parts.ofSlashes, List.append_nil, List.append_assoc slashes,
    List.takeWhile_append_dropWhile, List.append_assoc, List.append_assoc, ← htrim]

/-- The parts of the block comment around an inside. -/
def Parts.ofInterior (interior : Text) : Parts :=
  { style := .block
    opener := ['/', '*']
    lead := interior.takeWhile isAsciiSpace
    content := trim isAsciiSpace interior
    trail := interior.drop ((interior.takeWhile isAsciiSpace).length +
      (trim isAsciiSpace interior).length) ++ ['*', '/'] }

theorem ofInterior_eq (start : Nat) (interior : Text) :
    ofInterior start interior = (Parts.ofInterior interior).comment start := by
  simp only [ofInterior, Parts.comment, Parts.ofInterior, List.length_append, List.length_drop,
    List.length_cons, List.length_nil]
  congr 1
  omega

private theorem drop_lead_content (interior : Text) :
    ∃ after, interior = interior.takeWhile isAsciiSpace ++ trim isAsciiSpace interior ++ after ∧
      interior.drop ((interior.takeWhile isAsciiSpace).length +
        (trim isAsciiSpace interior).length) = after ∧ (∀ c ∈ after, isAsciiSpace c = true) := by
  obtain ⟨after, hsplit, hafter, -, -⟩ := exists_eq_trim_append isAsciiSpace interior
  have hdrop : (interior.takeWhile isAsciiSpace ++ trim isAsciiSpace interior ++ after).drop
      (interior.takeWhile isAsciiSpace ++ trim isAsciiSpace interior).length = after :=
    List.drop_left
  rw [← hsplit, List.length_append] at hdrop
  exact ⟨after, hsplit, hdrop, hafter⟩

/-- The parts that are read off an inside make up the inside and its delimiters. -/
theorem Parts.text_ofInterior (interior : Text) :
    (Parts.ofInterior interior).text = ['/', '*'] ++ interior ++ ['*', '/'] := by
  obtain ⟨after, hsplit, hdrop, -⟩ := drop_lead_content interior
  rw [text, Parts.ofInterior, hdrop]
  conv_rhs => rw [hsplit]
  simp

/-- Every inside that holds no star-slash is the inside of a block comment. -/
theorem Parts.isBlock_ofInterior {interior : Text} (h : ¬ ['*', '/'] <:+: interior) :
    (Parts.ofInterior interior).IsBlock := by
  obtain ⟨after, hsplit, hdrop, hafter⟩ := drop_lead_content interior
  obtain ⟨-, -, -, hhead, hlast⟩ := exists_eq_trim_append isAsciiSpace interior
  have hspaces : ∀ c ∈ interior.takeWhile isAsciiSpace, isAsciiSpace c = true :=
    fun c hc => List.mem_takeWhile_imp hc
  refine ⟨rfl, rfl, hspaces, hhead, hlast, after, ?_, hafter, ?_, ?_⟩
  · rw [Parts.ofInterior, hdrop]
  · intro hempty
    simp only [Parts.ofInterior] at hempty
    rw [hempty, List.append_nil] at hsplit
    have hall : ∀ c ∈ interior, isAsciiSpace c = true := by
      intro c hc
      rw [hsplit] at hc
      exact (List.mem_append.mp hc).elim (hspaces c) (hafter c)
    rw [List.takeWhile_eq_self_iff.mpr hall] at hsplit
    exact List.append_right_eq_self.mp hsplit.symm
  · simp only [Parts.ofInterior]
    rwa [← hsplit]

/-- A block comment that is written is the one around its inside. -/
theorem Parts.IsBlock.exists_interior {parts : Parts} (h : parts.IsBlock) :
    ∃ interior, parts = Parts.ofInterior interior ∧ ¬ ['*', '/'] <:+: interior := by
  obtain ⟨style, opener, lead, content, trail⟩ := parts
  obtain ⟨hstyle, hopener, hspaces, hhead, hlast, after, htrail, hafter, hnil, hfree⟩ := h
  simp only at hstyle hopener hspaces hhead hlast htrail hnil hfree
  subst hstyle hopener htrail
  refine ⟨lead ++ content ++ after, ?_, hfree⟩
  have hparts : trim isAsciiSpace (lead ++ content ++ after) = content ∧
      (lead ++ content ++ after).takeWhile isAsciiSpace = lead := by
    by_cases hcontent : content = []
    · rw [hnil hcontent, hcontent, List.append_nil, List.append_nil]
      have hall := List.dropWhile_eq_nil_iff.mpr hspaces
      exact ⟨by rw [trim, hall]; rfl, List.takeWhile_eq_self_iff.mpr hspaces⟩
    · exact trim_append hspaces hafter hhead hlast hcontent
  rw [Parts.ofInterior, hparts.1, hparts.2, ← List.length_append, List.drop_left]

end Comment

end Stencil
