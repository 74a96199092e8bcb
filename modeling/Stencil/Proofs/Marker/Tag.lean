import Stencil.Marker.Basic

/-!
# How tags begin

A content that is read as anything but prose begins like a tag of the configured name. A text in
which no such beginning occurs holds no marker, whatever the comments in it are.
-/

namespace Stencil.Marker

/-- How an opening tag begins. -/
def openingStart (tag : Text) : Text := '<' :: tag

/-- How a closing tag begins. -/
def closingStart (tag : Text) : Text := '<' :: '/' :: tag

/-- Whatever is read as a tag begins like one: faulty tags begin like opening tags. -/
theorem read_cases (tag content : Text) :
    read tag content = .ok none ∨
      (read tag content = .ok (some .closing) ∧ closingStart tag <+: content) ∨
      (read tag content ≠ .ok (some .closing) ∧ openingStart tag <+: content) := by
  have hspelled := Token.flatMap_text_lex content
  rw [read]
  split
  · next name rest hlex =>
    rw [hlex] at hspelled
    split
    · next h =>
      simp only [Bool.and_eq_true, beq_iff_eq] at h
      obtain ⟨rfl, -⟩ := h
      refine Or.inr (Or.inl ⟨rfl, rest.flatMap Token.text, ?_⟩)
      simpa [Token.text, closingStart] using hspelled
    · exact Or.inl rfl
  · next name rest hlex =>
    rw [hlex] at hspelled
    split
    · next h =>
      simp only [Bool.and_eq_true, beq_iff_eq] at h
      obtain ⟨⟨rfl, -⟩, -⟩ := h
      refine Or.inr (Or.inr ⟨?_, rest.flatMap Token.text, ?_⟩)
      · cases readAttributes [] rest with
        | error fault => simp [Except.map]
        | ok attributes => cases attributes <;> simp [Except.map]
      · simpa [Token.text, openingStart] using hspelled
    · exact Or.inl rfl
  · exact Or.inl rfl

theorem closingStart_isPrefix {tag content : Text} (h : read tag content = .ok (some .closing)) :
    closingStart tag <+: content := by
  rcases read_cases tag content with hprose | ⟨-, hpre⟩ | ⟨hne, -⟩
  · simp [h] at hprose
  · exact hpre
  · exact absurd h hne

/-- Opening tags and faulty ones begin alike. -/
theorem openingStart_isPrefix {tag content : Text} {result : Except MarkerError Attributes}
    (h : read tag content = result.map fun attributes => some (.opening attributes)) :
    openingStart tag <+: content := by
  rcases read_cases tag content with hprose | ⟨hclosing, -⟩ | ⟨-, hpre⟩
  · rw [h] at hprose
    cases result <;> simp [Except.map] at hprose
  · rw [h] at hclosing
    cases result <;> simp [Except.map] at hclosing
  · exact hpre

end Stencil.Marker
