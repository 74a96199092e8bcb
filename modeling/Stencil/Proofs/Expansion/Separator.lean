import Stencil.Expansion.Assembler
import Stencil.Proofs.Expansion.Word
import Stencil.Proofs.Text.Cut
import Stencil.Proofs.Text.Runs

/-!
# Separators

A character that is no ASCII letter or digit, and that is not in a word, keeps apart what stands on
either side of it: no occurrence of the word reaches across it, and to its neighbours it is what an
end of the text is. So a text is replaced piece by piece, and a template whose columns hold no line
feed is expanded line by line.
-/

namespace Stencil

open Text

/-- What stands on either side of a mark is worked on as if it were alone. -/
def IsLocalAt (mark : Char) (f : Text → Text) : Prop :=
  ∀ left right, f (left ++ mark :: right) = f left ++ mark :: f right

namespace IsLocalAt

variable {mark : Char} {f : Text → Text}

/-- What is joined with marks is worked on piece by piece. -/
theorem join_eq (h : IsLocalAt mark f) {pieces : List Text} (hpieces : pieces ≠ []) :
    f (join mark pieces) = join mark (pieces.map f) := by
  induction pieces with
  | nil => exact absurd rfl hpieces
  | cons first rest ih =>
    cases rest with
    | nil => rfl
    | cons second rest =>
      rw [join_cons_cons, h, ih (List.cons_ne_nil second rest)]
      rfl

/-- A text is worked on piece by piece. -/
theorem eq_join_cut (h : IsLocalAt mark f) (text : Text) :
    f text = join mark ((cut mark text).map f) := by
  rw [← h.join_eq (cut_ne_nil mark text), join_cut]

/-- Another piece in the place of one changes what comes of that one only. -/
theorem join_set_eq (h : IsLocalAt mark f) (text piece : Text) (i : Nat) :
    f (join mark ((cut mark text).set i piece)) =
      join mark (((cut mark text).map f).set i (f piece)) := by
  rw [h.join_eq (by simpa using cut_ne_nil mark text), List.map_set]

theorem comp {g : Text → Text} (hg : IsLocalAt mark g) (hf : IsLocalAt mark f) :
    IsLocalAt mark fun text => g (f text) := by
  intro left right
  change g (f (left ++ mark :: right)) = _
  rw [hf, hg]

/-- Passes one after the other are local if each of them is. -/
theorem foldl {α : Type} {pass : Text → α → Text} (items : List α)
    (h : ∀ item ∈ items, IsLocalAt mark (pass · item)) :
    IsLocalAt mark fun text => items.foldl pass text := by
  induction items with
  | nil => exact fun _ _ => rfl
  | cons item items ih =>
    obtain ⟨hitem, hrest⟩ := List.forall_mem_cons.mp h
    exact (ih hrest).comp hitem

end IsLocalAt

/-! ## One word -/

/-- Fronts behind which the same words stand free are still such with the same part behind them. -/
theorem standsFree_append_iff {before other : Text}
    (h : ∀ after, StandsFree before after ↔ StandsFree other after) (part after : Text) :
    StandsFree (before ++ part) after ↔ StandsFree (other ++ part) after := by
  rcases List.eq_nil_or_concat' part with rfl | ⟨front, c, rfl⟩
  · rw [List.append_nil, List.append_nil, h]
  · rw [StandsFree, StandsFree, ← List.append_assoc, ← List.append_assoc, List.getLast?_concat,
      List.getLast?_concat]

/-- An occurrence that begins in front of a separator ends there. -/
theorem exists_of_separator {word left right after : Text} {c : Char} (hword : c ∉ word)
    (h : left ++ c :: right = word ++ after) :
    ∃ between, left = word ++ between ∧ after = between ++ c :: right :=
  exists_between h.symm (length_le_of_not_mem h.symm hword)

/-- A word in front of a separator stands free as it does in front of the end of the text. -/
theorem standsFree_separator_iff {before between right : Text} {c : Char}
    (hc : c.isAlphanum = false) :
    StandsFree before (between ++ c :: right) ↔ StandsFree before between := by
  cases between with
  | nil => simp [StandsFree, hc]
  | cons d between => rfl

namespace Rewrites

variable {word replacement before left right result : Text} {c : Char}

/-- What stands in front of a text only decides which words stand free. -/
theorem of_standsFree_iff {other : Text}
    (hsame : ∀ after, StandsFree before after ↔ StandsFree other after)
    (h : Rewrites word replacement before right result) :
    Rewrites word replacement other right result := by
  induction h generalizing other with
  | done before => exact .done other
  | replaced hfree _ ih =>
    exact .replaced ((hsame _).mp hfree) (ih (standsFree_append_iff hsame word))
  | @kept before rest result c hblocked _ ih =>
    refine .kept (fun after hafter => ?_) (ih (standsFree_append_iff hsame [c]))
    exact mt (hsame after).mpr (hblocked after hafter)

/-- Behind a separator a text is rewritten as if it began there. -/
theorem separator (hc : c.isAlphanum = false) (nonempty : word ≠ []) (hword : c ∉ word)
    (h : Rewrites word replacement [] right result) :
    Rewrites word replacement before (c :: right) (c :: result) := by
  refine .kept (fun after hafter => ?_) (h.of_standsFree_iff fun after => ?_)
  · obtain ⟨between, hempty, -⟩ := @exists_of_separator word [] right after c hword hafter
    exact absurd (List.append_eq_nil_iff.mp hempty.symm).1 nonempty
  · simp [StandsFree, hc]

/-- The rewriting of a text up to a separator is followed by that of the text behind it. -/
theorem append_separator {other : Text} (hc : c.isAlphanum = false) (nonempty : word ≠ [])
    (hword : c ∉ word) (h : Rewrites word replacement before left result)
    (hright : Rewrites word replacement [] right other) :
    Rewrites word replacement before (left ++ c :: right) (result ++ c :: other) := by
  induction h with
  | done before => exact separator hc nonempty hword hright
  | replaced hfree _ ih =>
    rw [List.append_assoc, List.append_assoc]
    exact .replaced ((standsFree_separator_iff hc).mpr hfree) ih
  | @kept _ rest _ d hblocked _ ih =>
    refine .kept (fun after hafter hfree => ?_) ih
    -- An occurrence that begins here lies in front of the separator, where none counts.
    obtain ⟨between, hbetween, rfl⟩ :=
      @exists_of_separator word (d :: rest) right after c hword hafter
    exact hblocked between hbetween ((standsFree_separator_iff hc).mp hfree)

end Rewrites

/-- A word is replaced on either side of a separator that it does not hold. -/
theorem isLocalAt_replaceWord {word : Text} {c : Char} (replacement : Text)
    (hc : c.isAlphanum = false) (hword : c ∉ word) :
    IsLocalAt c (replaceWord · word replacement) := by
  intro left right
  by_cases nonempty : word = []
  · simp [replaceWord, Units.replace, nonempty]
  · have hleft := rewrites_replaceWord nonempty left replacement
    have hright := rewrites_replaceWord nonempty right replacement
    exact (hleft.append_separator hc nonempty hword hright).replaceWord_eq nonempty

/-! ## A row -/

theorem isLocalAt_expandRow {header : List Text} {indexToken : Text} {c : Char} (index : Nat)
    (row : List Text) (hc : c.isAlphanum = false) (hheader : ∀ column ∈ header, c ∉ column)
    (htoken : c ∉ indexToken) : IsLocalAt c (expandRow header indexToken · index row) := by
  have hcolumns := IsLocalAt.foldl (header.zip row) fun column hcolumn =>
    isLocalAt_replaceWord column.2 hc (hheader column.1 (List.of_mem_zip hcolumn).1)
  exact (isLocalAt_replaceWord _ hc htoken).comp hcolumns

/-- A word is replaced on either side of a separator as if nothing stood on the other side, hence
line by line if it holds no line feed. So a row's copy of an edited template differs from its copy
of the template in what comes of the edited line, whatever the row has put in. -/
theorem replaceWord_isLocal :
    (∀ (word replacement left right : Text) (c : Char), c.isAlphanum = false → c ∉ word →
      replaceWord (left ++ c :: right) word replacement =
        replaceWord left word replacement ++ c :: replaceWord right word replacement) ∧
    (∀ word replacement text : Text, '\n' ∉ word →
      replaceWord text word replacement =
        join '\n' ((pieces text).map (replaceWord · word replacement))) ∧
    ∀ (header row : List Text) (indexToken template line : Text) (index edited : Nat),
      (∀ column ∈ header, '\n' ∉ column) → '\n' ∉ indexToken →
      let copy := fun text => expandRow header indexToken text index row
      copy template = join '\n' ((pieces template).map copy) ∧
        copy (join '\n' ((pieces template).set edited line)) =
          join '\n' (((pieces template).map copy).set edited (copy line)) := by
  have hfeed : '\n'.isAlphanum = false := rfl
  refine ⟨?_, ?_, ?_⟩
  · intro word replacement left right c hc hword
    exact isLocalAt_replaceWord replacement hc hword left right
  · intro word replacement text hword
    exact (isLocalAt_replaceWord replacement hfeed hword).eq_join_cut text
  · intro header row indexToken template line index edited hheader htoken copy
    have hlocal : IsLocalAt '\n' copy := isLocalAt_expandRow index row hfeed hheader htoken
    exact ⟨hlocal.eq_join_cut template, hlocal.join_set_eq template line edited⟩

/-- An occurrence that does not count overlaps with one in front of a separator, which counts; and a
value that ends a line early leaves the expansion of the next line as it is. -/
theorem replaceWord_isLocal_samples :
    (let word : Text := ['a', '.', 'a']
      let left : Text := ['x', 'a', '.', 'a', '.', 'a']
      let right : Text := ['a', '.', 'a', '-', 'b', 'a', '.', 'a']
      'é'.isAlphanum = false ∧ 'é' ∉ word ∧
        replaceWord (left ++ 'é' :: right) word ['ü'] =
          ['x', 'a', '.', 'ü'] ++ 'é' :: ['ü', '-', 'b', 'a', '.', 'a'] ∧
        '\n' ∉ word ∧
        replaceWord (left ++ '\n' :: right) word ['ü'] =
          join '\n' [['x', 'a', '.', 'ü'], ['ü', '-', 'b', 'a', '.', 'a']]) ∧
    let header : List Text := [['A'], ['B']]
    let copy := fun text => expandRow header ['i', '_'] text 7 [['B', '\n', 'B'], ['1']]
    (∀ column ∈ header, '\n' ∉ column) ∧ '\n' ∉ ['i', '_'] ∧
      copy ['A', '\n', 'B'] = join '\n' [['1', '\n', '1'], ['1']] ∧
      copy (join '\n' ((pieces ['A', '\n', 'B']).set 1 ['B', '-', 'i', '_'])) =
        join '\n' [['1', '\n', '1'], ['1', '-', '7']] := by
  obtain ⟨hseparator, hlines, hrow⟩ := replaceWord_isLocal
  refine ⟨?_, ?_⟩
  · intro word left right
    have hc : 'é'.isAlphanum = false := by decide
    have hword : 'é' ∉ word := by decide
    have hfeed : '\n' ∉ word := by decide
    refine ⟨hc, hword, ?_, hfeed, ?_⟩
    · rw [hseparator word ['ü'] left right 'é' hc hword]
      cbv
    · rw [hlines word ['ü'] (left ++ '\n' :: right) hfeed]
      cbv
  · intro header copy
    have hheader : ∀ column ∈ header, '\n' ∉ column := by decide
    have htoken : '\n' ∉ ['i', '_'] := by decide
    obtain ⟨hcopy, hedited⟩ := hrow header [['B', '\n', 'B'], ['1']] ['i', '_'] ['A', '\n', 'B']
      ['B', '-', 'i', '_'] 7 1 hheader htoken
    refine ⟨hheader, htoken, hcopy.trans ?_, hedited.trans ?_⟩
    · cbv
    · cbv

end Stencil
