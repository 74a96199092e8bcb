import Stencil.Text.Basic

/-!
# Cutting and joining

A text is cut at each occurrence of a mark, on either side of it on its own. Pieces in which the
mark does not occur are cut apart again where they were joined, and no piece of a text holds
anything that the text does not. Where only some of the marks cut, what stands in front of a mark
decides, and a text is cut in one way only.
-/

namespace Stencil.Text

/-! ## Cutting -/

/-- A text without the mark is one piece. -/
theorem cut_of_not_mem {mark : Char} {text : Text} (h : mark ∉ text) : cut mark text = [text] := by
  induction text with
  | nil => rfl
  | cons c rest ih =>
    simp only [List.mem_cons, not_or] at h
    rw [cut_cons, if_neg (by simpa using Ne.symm h.1), ih h.2]
    rfl

private theorem glue_append (c : Char) {pieces : List Text} (more : List Text)
    (h : pieces ≠ []) : glue c (pieces ++ more) = glue c pieces ++ more := by
  cases pieces with
  | nil => exact absurd rfl h
  | cons first rest => rfl

/-- Either side of a mark is cut on its own. -/
theorem cut_append_cons (mark : Char) (left right : Text) :
    cut mark (left ++ mark :: right) = cut mark left ++ cut mark right := by
  induction left with
  | nil => simp [cut_cons]
  | cons c left ih =>
    rw [List.cons_append, cut_cons, cut_cons, ih]
    split
    · rfl
    · exact glue_append c _ (cut_ne_nil mark left)

/-- Only the first piece is changed when a character is put in front of it. -/
theorem of_mem_glue {c : Char} {pieces : List Text} {piece : Text} (h : piece ∈ glue c pieces) :
    piece = [c] ∨ (∃ first ∈ pieces, piece = c :: first) ∨ piece ∈ pieces := by
  cases pieces with
  | nil => exact Or.inl (List.mem_singleton.mp h)
  | cons first rest =>
    rcases List.mem_cons.mp h with rfl | hmem
    · exact Or.inr (Or.inl ⟨first, List.mem_cons_self, rfl⟩)
    · exact Or.inr (Or.inr (List.mem_cons_of_mem first hmem))

theorem subset_of_mem_glue {c : Char} {pieces : List Text} {piece text : Text}
    (h : piece ∈ glue c pieces) (hpieces : ∀ other ∈ pieces, other ⊆ text) : piece ⊆ c :: text := by
  rcases of_mem_glue h with rfl | ⟨first, hfirst, rfl⟩ | hmem
  · exact List.cons_subset_cons c (List.nil_subset text)
  · exact List.cons_subset_cons c (hpieces first hfirst)
  · exact List.subset_cons_of_subset c (hpieces piece hmem)

/-- A piece holds no mark, and nothing that the text does not hold. -/
theorem of_mem_cut {mark : Char} {text piece : Text} (h : piece ∈ cut mark text) :
    mark ∉ piece ∧ piece ⊆ text := by
  induction text generalizing piece with
  | nil =>
    obtain rfl : piece = [] := by simpa using h
    simp
  | cons c text ih =>
    rw [cut_cons] at h
    split at h
    · rcases List.mem_cons.mp h with rfl | h
      · simp
      · exact ⟨(ih h).1, List.subset_cons_of_subset c (ih h).2⟩
    · next hc =>
      have hmark : mark ≠ c := fun heq => hc (by simp [heq])
      refine ⟨?_, subset_of_mem_glue h fun other hother => (ih hother).2⟩
      rcases of_mem_glue h with rfl | ⟨first, hfirst, rfl⟩ | hmem
      · simp [hmark]
      · simp [hmark, (ih hfirst).1]
      · exact (ih hmem).1

/-! ## Joining -/

theorem join_cons_cons (mark : Char) (first second : Text) (rest : List Text) :
    join mark (first :: second :: rest) = first ++ mark :: join mark (second :: rest) := rfl

/-- Cutting at a mark undoes joining with it where the mark is in none of the pieces. -/
theorem cut_join {mark : Char} {pieces : List Text} (hpieces : pieces ≠ [])
    (h : ∀ piece ∈ pieces, mark ∉ piece) : cut mark (join mark pieces) = pieces := by
  induction pieces with
  | nil => exact absurd rfl hpieces
  | cons first rest ih =>
    have hfirst := cut_of_not_mem (h first List.mem_cons_self)
    cases rest with
    | nil => exact hfirst
    | cons second rest =>
      have hrest := ih (by simp) fun piece hpiece => h piece (List.mem_cons_of_mem first hpiece)
      rw [join_cons_cons, cut_append_cons, hfirst, hrest]
      rfl

theorem join_append_cons (mark : Char) (front first : Text) (rest : List Text) :
    join mark ((front ++ first) :: rest) = front ++ join mark (first :: rest) := by
  cases rest with
  | nil => rfl
  | cons second rest => rw [join_cons_cons, join_cons_cons, List.append_assoc]

theorem join_isPrefix (mark : Char) {front pieces : List Text} (h : front <+: pieces) :
    join mark front <+: join mark pieces := by
  induction front generalizing pieces with
  | nil => exact List.nil_prefix
  | cons first rest ih =>
    obtain ⟨more, rfl⟩ := h
    cases rest with
    | nil =>
      cases more with
      | nil => exact List.prefix_refl _
      | cons next more => exact List.prefix_append first _
    | cons second rest =>
      rw [List.cons_append, List.cons_append, join_cons_cons, join_cons_cons,
        List.prefix_append_right_inj, List.cons_prefix_cons]
      exact ⟨rfl, ih (List.prefix_append (second :: rest) more)⟩

theorem not_mem_join {c mark : Char} {pieces : List Text} (hmark : c ≠ mark)
    (h : ∀ piece ∈ pieces, c ∉ piece) : c ∉ join mark pieces := by
  induction pieces with
  | nil => simp [join]
  | cons first rest ih =>
    have hfirst := h first List.mem_cons_self
    cases rest with
    | nil => exact hfirst
    | cons second rest =>
      have hrest := ih fun piece hpiece => h piece (List.mem_cons_of_mem first hpiece)
      rw [join_cons_cons]
      simp only [List.mem_append, List.mem_cons, not_or]
      exact ⟨hfirst, hmark, hrest⟩

/-! ## Cutting at some of the marks -/

/-- What stands behind `before` in a text is cut into these pieces, at exactly those marks whose
front is chosen. -/
inductive CutsAt (mark : Char) (chosen : Text → Prop) : Text → Text → List Text → Prop
  | last {before piece : Text}
      (hkept : ∀ front back, piece = front ++ mark :: back → ¬ chosen (before ++ front)) :
      CutsAt mark chosen before piece [piece]
  | cut {before piece rest : Text} {pieces : List Text}
      (hkept : ∀ front back, piece = front ++ mark :: back → ¬ chosen (before ++ front))
      (hchosen : chosen (before ++ piece))
      (hrest : CutsAt mark chosen (before ++ piece ++ [mark]) rest pieces) :
      CutsAt mark chosen before (piece ++ mark :: rest) (piece :: pieces)

namespace CutsAt

variable {mark : Char} {chosen : Text → Prop} {before text : Text} {pieces : List Text}

/-- A piece ends at the first mark that is chosen. -/
theorem piece_unique {piece rest other more : Text}
    (hkept : ∀ front back, piece = front ++ mark :: back → ¬ chosen (before ++ front))
    (hother : chosen (before ++ other)) (h : piece ++ rest = other ++ mark :: more) :
    ∃ between, other = piece ++ between := by
  rcases List.append_eq_append_iff.mp h with ⟨between, hbetween, -⟩ | ⟨excess, hpiece, hrest⟩
  · exact ⟨between, hbetween⟩
  · cases excess with
    | nil => exact ⟨[], by rw [hpiece, List.append_nil, List.append_nil]⟩
    | cons c excess =>
      obtain ⟨rfl, -⟩ := List.cons.inj hrest
      exact absurd hother (hkept other excess hpiece)

theorem unique {others : List Text} (h : CutsAt mark chosen before text pieces)
    (hothers : CutsAt mark chosen before text others) : pieces = others := by
  induction h generalizing others with
  | @last before piece hkept =>
    cases hothers with
    | last => rfl
    | cut _ hchosen _ => exact absurd hchosen (hkept _ _ rfl)
  | @cut before piece rest pieces hkept hchosen hrest ih =>
    generalize htext : piece ++ mark :: rest = text at hothers
    cases hothers with
    | last hother => exact absurd hchosen (hother _ _ htext.symm)
    | @cut _ other more _ hother hchosen' hmore =>
      obtain ⟨between, hbetween⟩ := piece_unique hkept hchosen' htext
      obtain ⟨between', hbetween'⟩ := piece_unique hother hchosen htext.symm
      obtain rfl : piece = other := by
        have hlength := congrArg List.length hbetween
        have hlength' := congrArg List.length hbetween'
        rw [List.length_append] at hlength hlength'
        have hnil : between = [] := List.length_eq_zero_iff.mp (by omega)
        rw [hbetween, hnil, List.append_nil]
      obtain ⟨-, rfl⟩ := List.cons.inj (List.append_cancel_left htext)
      rw [ih hmore]

/-- Only the fronts of marks that the text has are looked at. -/
theorem congr {chosen' : Text → Prop} {before' : Text} (h : CutsAt mark chosen before text pieces)
    (hchosen : ∀ front back, text = front ++ mark :: back →
      (chosen (before ++ front) ↔ chosen' (before' ++ front))) :
    CutsAt mark chosen' before' text pieces := by
  induction h generalizing before' with
  | @last before piece hkept =>
    exact .last fun front back hpiece =>
      mt (hchosen front back hpiece).mpr (hkept front back hpiece)
  | @cut before piece rest pieces hkept hcut hrest ih =>
    refine .cut (fun front back hpiece => ?_) ((hchosen piece rest rfl).mp hcut) (ih ?_)
    · have hfront := hchosen front (back ++ mark :: rest) (by simp [hpiece])
      exact mt hfront.mpr (hkept front back hpiece)
    · intro front back hsplit
      have hfront := hchosen (piece ++ [mark] ++ front) back (by simp [hsplit])
      simpa only [List.append_assoc] using hfront

/-- A character that is no chosen mark belongs to the piece that it stands in front of. -/
theorem cons {c : Char} {rest : Text} (hc : c = mark → ¬ chosen before)
    (h : CutsAt mark chosen (before ++ [c]) rest pieces) :
    CutsAt mark chosen before (c :: rest) (glue c pieces) := by
  have hlonger : ∀ piece : Text,
      (∀ front back, piece = front ++ mark :: back → ¬ chosen (before ++ [c] ++ front)) →
      ∀ front back, c :: piece = front ++ mark :: back → ¬ chosen (before ++ front) := by
    intro piece hkept front back hpiece
    cases front with
    | nil =>
      rw [List.append_nil]
      exact hc (List.cons.inj hpiece).1
    | cons d front =>
      obtain ⟨rfl, htail⟩ := List.cons.inj hpiece
      have hfront := hkept front back htail
      rwa [← List.append_cons] at hfront
  generalize hbefore : before ++ [c] = longer at h
  cases h with
  | last hkept =>
    subst hbefore
    exact .last (hlonger _ hkept)
  | @cut _ piece rest pieces hkept hchosen hrest =>
    subst hbefore
    rw [← List.append_cons] at hchosen hrest
    exact .cut (hlonger _ hkept) hchosen hrest

end CutsAt

end Stencil.Text
