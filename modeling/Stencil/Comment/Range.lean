import Stencil.Comment.Scan

/-!
# Where comments lie

Every comment that a scan yields lies inside the text that was scanned, is at least two characters
long, and begins no earlier than the comment before it ends.
-/

namespace Stencil.Comment

open Text

private theorem length_takeWhile_le (p : Char → Bool) (text : Text) :
    (text.takeWhile p).length ≤ text.length := by
  have := congrArg List.length (List.takeWhile_append_dropWhile (p := p) (l := text))
  rw [List.length_append] at this
  omega

private theorem length_dropWhile_le (p : Char → Bool) (text : Text) :
    (text.dropWhile p).length ≤ text.length := by
  have := congrArg List.length (List.takeWhile_append_dropWhile (p := p) (l := text))
  rw [List.length_append] at this
  omega

theorem length_trimEnd_le (p : Char → Bool) (text : Text) :
    (trimEnd p text).length ≤ text.length := by
  simpa [trimEnd] using length_dropWhile_le p text.reverse

/-- The run of slashes that opens a line comment holds at least the two that were looked for. -/
private theorem two_le_slashes {line : Text} {before : Nat}
    (h : find? ['/', '/'] line = some before) :
    2 ≤ ((line.drop before).takeWhile (· == '/')).length := by
  have hp := find?_isPrefixOf h
  match hl : line.drop before with
  | [] => rw [hl] at hp; simp at hp
  | [a] => rw [hl] at hp; simp at hp
  | a :: b :: rest =>
    rw [hl] at hp
    simp only [List.isPrefixOf, Bool.and_eq_true, beq_iff_eq, Bool.and_true] at hp
    obtain ⟨rfl, rfl⟩ := hp
    simp

/-- The comment of a line lies inside the line. -/
theorem ofLine?_range {position : Nat} {line : Text} {comment : Comment}
    (h : ofLine? position line = some comment) :
    position ≤ comment.start ∧ comment.start + 2 ≤ comment.stop ∧
      comment.stop ≤ position + line.length := by
  obtain ⟨before, hfind, rfl⟩ := Option.map_eq_some_iff.1 h
  have hbound := find?_bound hfind
  have htwo := two_le_slashes hfind
  have hslash := length_takeWhile_le (· == '/') (line.drop before)
  have hvis := length_trimEnd_le isLineEnd
    (line.drop (before + ((line.drop before).takeWhile (· == '/')).length))
  have hsplit := congrArg List.length (List.takeWhile_append_dropWhile (p := isBlank)
    (l := trimEnd isLineEnd
      (line.drop (before + ((line.drop before).takeWhile (· == '/')).length))))
  simp only [List.length_append, List.length_drop, List.length_cons, List.length_nil] at *
  simp only [stop, span, content]
  omega

/-- The comments of consecutive lines lie inside them. -/
theorem ofLines_range {position : Nat} {lines : List Text} {comment : Comment}
    (h : comment ∈ ofLines position lines) :
    position ≤ comment.start ∧ comment.start + 2 ≤ comment.stop ∧
      comment.stop ≤ position + (join '\n' lines).length := by
  induction lines generalizing position with
  | nil => simp [ofLines] at h
  | cons line rest ih =>
    have hlen : line.length ≤ (join '\n' (line :: rest)).length ∧
        (rest ≠ [] → (join '\n' (line :: rest)).length =
          line.length + 1 + (join '\n' rest).length) := by
      cases rest with
      | nil => simp [join]
      | cons second rest =>
        simp only [join, List.length_append, List.length_cons, ne_eq]
        omega
    simp only [ofLines, List.mem_append, Option.mem_toList] at h
    rcases h with h | h
    · have := ofLine?_range h
      omega
    · have hne : rest ≠ [] := by rintro rfl; simp [ofLines] at h
      have := ih h
      have := hlen.2 hne
      omega

/-- A block comment spans its delimiters and its inside. -/
theorem ofInterior_stop (start : Nat) (interior : Text) :
    (ofInterior start interior).stop = start + interior.length + 4 := by
  have hlead := congrArg List.length
    (List.takeWhile_append_dropWhile (p := isAsciiSpace) (l := interior))
  have htext := length_trimEnd_le isAsciiSpace (interior.dropWhile isAsciiSpace)
  simp only [List.length_append] at hlead
  simp only [stop, span, content, ofInterior, trim]
  omega

/-- The block comments of a text lie inside it. -/
theorem blocks_range {position : Nat} {text : Text} {comment : Comment}
    (h : comment ∈ blocks position text) :
    position ≤ comment.start ∧ comment.start + 2 ≤ comment.stop ∧
      comment.stop ≤ position + text.length := by
  fun_induction blocks position text with
  | case1 => simp at h
  | case2 => simp at h
  | case3 position text before hopen inside length hclose ih =>
    have hb := find?_bound hopen
    have hc := find?_bound hclose
    simp only [inside, List.length_drop, List.length_cons, List.length_nil] at hb hc
    rcases List.mem_cons.1 h with rfl | h
    · rw [ofInterior_stop]
      simp only [ofInterior, inside, List.length_take, List.length_drop]
      omega
    · have := ih h
      simp only [inside, List.length_drop] at this
      omega

/-- Every comment of a scan lies in the text from the scan's start on. -/
theorem scan_range {text : Text} {start : Nat} {style : Style} {comment : Comment}
    (h : comment ∈ scan text start style) :
    min start text.length ≤ comment.start ∧ comment.start + 2 ≤ comment.stop ∧
      comment.stop ≤ text.length := by
  have hrange : min start text.length ≤ comment.start ∧ comment.start + 2 ≤ comment.stop ∧
      comment.stop ≤ min start text.length + (text.drop start).length := by
    cases style with
    | line =>
      have := @ofLines_range _ (pieces (text.drop start)) _ h
      simpa only [pieces, join_cut] using this
    | block => exact blocks_range h
  simp only [List.length_drop] at hrange
  omega

end Stencil.Comment
