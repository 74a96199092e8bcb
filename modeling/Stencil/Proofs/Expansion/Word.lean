import Stencil.Expansion.Word
import Stencil.Proofs.Text.Bytes

/-!
# Whole words are replaced greedily

The replacement of a word is searched for with two positions, one up to which the text is written
and one from which the next occurrence is looked for. What comes of it is the greedy rewriting of
the text, character by character: no occurrence begins in front of the first one that is found, and the
search goes on one character behind an occurrence that does not count. The neighbours of an
occurrence are those that it has in the text, never those of what is written.

The same search over the bytes of the text takes the same steps, since a word occurs among the bytes
only where it occurs among the characters, and a byte that is an ASCII letter or digit is a
character.
-/

namespace Stencil

open Text

namespace Units

/-- Each byte of a text that is written as UTF-8 is one unit. -/
def bytes : Units UInt8 := ⟨fun byte => (Char.ofUInt8 byte).isAlphanum, bytesBehind⟩

variable {α : Type} [BEq α] {word replacement text : List α} {nonempty : word ≠ []}
  {copied search distance : Nat}

theorem replaceFrom_of_none (units : Units α)
    (h : find? word (text.drop search) nonempty = none) :
    units.replaceFrom word replacement text nonempty copied search = text.drop copied := by
  rw [replaceFrom]
  split
  · rfl
  · next found hfound => exact absurd (h.symm.trans hfound) (by simp)

/-- Either way an occurrence is dealt with once it is found. -/
theorem replaceFrom_of_some (units : Units α) {start stop : Nat}
    (h : find? word (text.drop search) nonempty = some distance)
    (hstart : start = search + distance) (hstop : stop = start + word.length) :
    units.replaceFrom word replacement text nonempty copied search =
      if units.isFree text start stop then
        (text.take start).drop copied ++ replacement ++
          units.replaceFrom word replacement text nonempty stop stop
      else
        units.replaceFrom word replacement text nonempty copied
          (start + 1 + text[start]?.elim 0 units.more) := by
  rw [replaceFrom]
  split
  · next hnone => exact absurd (h.symm.trans hnone) (by simp)
  · next found hfound =>
    obtain rfl := Option.some.inj (h.symm.trans hfound)
    rw [hstop, hstart]

@[simp] theorem elim_more_characters (c? : Option Char) :
    c?.elim 0 characters.more = 0 := by
  cases c? <;> rfl

end Units

/-! ## The greedy rewriting -/

/-- What stands between these parts of a text has no ASCII letter or digit next to it. -/
def StandsFree (before after : Text) : Prop :=
  (∀ c ∈ before.getLast?, c.isAlphanum = false) ∧ ∀ c ∈ after.head?, c.isAlphanum = false

/-- The greedy rewriting of what stands behind `before` in a text, character by character. -/
inductive Rewrites (word replacement : Text) : Text → Text → Text → Prop
  | done (before : Text) : Rewrites word replacement before [] []
  | replaced {before after result : Text} (hfree : StandsFree before after)
      (hafter : Rewrites word replacement (before ++ word) after result) :
      Rewrites word replacement before (word ++ after) (replacement ++ result)
  | kept {before rest result : Text} {c : Char}
      (hblocked : ∀ after, c :: rest = word ++ after → ¬ StandsFree before after)
      (hrest : Rewrites word replacement (before ++ [c]) rest result) :
      Rewrites word replacement before (c :: rest) (c :: result)

namespace Rewrites

variable {word replacement before rest result : Text}

/-- A part in which no occurrence begins that counts is kept. -/
theorem keep (part : Text)
    (hblocked : ∀ front back after, part = front ++ back → back ≠ [] →
      back ++ rest = word ++ after → ¬ StandsFree (before ++ front) after)
    (h : Rewrites word replacement (before ++ part) rest result) :
    Rewrites word replacement before (part ++ rest) (part ++ result) := by
  induction part generalizing before with
  | nil => simpa using h
  | cons c part ih =>
    refine .kept (fun after hafter => ?_) (ih ?_ ?_)
    · have hfirst := hblocked [] (c :: part) after rfl (by simp) hafter
      rwa [List.append_nil] at hfirst
    · intro front back after hpart hback hafter
      have hlater := hblocked (c :: front) back after (by rw [hpart, List.cons_append]) hback hafter
      rwa [List.append_cons] at hlater
    · rwa [← List.append_cons]

/-- Nothing is left open by the rewriting. -/
theorem unique (hword : word ≠ []) {other : Text}
    (h : Rewrites word replacement before rest result)
    (hother : Rewrites word replacement before rest other) : result = other := by
  induction h generalizing other with
  | done before =>
    generalize hrest : ([] : Text) = rest at hother
    cases hother with
    | done => rfl
    | replaced => exact absurd (List.append_eq_nil_iff.mp hrest.symm).1 hword
    | kept => exact absurd hrest (by simp)
  | @replaced before after result hfree hafter ih =>
    generalize hrest : word ++ after = rest at hother
    cases hother with
    | done => exact absurd (List.append_eq_nil_iff.mp hrest).1 hword
    | @replaced _ after' result' _ hafter' =>
      obtain rfl := List.append_cancel_left hrest
      rw [ih hafter']
    | @kept _ rest result' c hblocked => exact absurd hfree (hblocked after hrest.symm)
  | @kept before rest result c hblocked hrest ih =>
    generalize hcons : c :: rest = whole at hother
    cases hother with
    | done => exact absurd hcons (by simp)
    | @replaced _ after result' hfree => exact absurd hfree (hblocked after hcons)
    | @kept _ rest' result' c' _ hrest' =>
      obtain ⟨rfl, rfl⟩ := List.cons.inj hcons
      rw [ih hrest']

end Rewrites

theorem Units.isBoundary_characters_iff {c? : Option Char} :
    Units.characters.isBoundary c? = true ↔ ∀ c ∈ c?, c.isAlphanum = false := by
  cases c? <;> simp [isBoundary, characters]

theorem Units.isFree_characters_iff {before word after : Text} {start stop : Nat}
    (hstart : start = before.length) (hstop : stop = (before ++ word).length) :
    Units.characters.isFree (before ++ word ++ after) start stop = true ↔
      StandsFree before after := by
  have hnext : (before ++ word ++ after)[stop]? = after.head? := by
    rw [hstop, List.getElem?_append_right (Nat.le_refl _), Nat.sub_self, List.head?_eq_getElem?]
  rw [isFree, hnext, hstart, List.append_assoc, List.take_left, Bool.and_eq_true,
    isBoundary_characters_iff, isBoundary_characters_iff, StandsFree]

/-- No occurrence begins in front of the first one. -/
theorem not_begins_of_not_infix {word gap front back after later : Text} (nonempty : word ≠ [])
    (h : ¬ word <:+: gap ++ word.dropLast) (hgap : gap = front ++ back) (hback : back ≠ []) :
    back ++ (word ++ after) ≠ word ++ later := by
  intro heq
  apply h
  have hlast : word.dropLast <+: word := List.dropLast_prefix word
  have hlong : back ++ word.dropLast <+: word ++ later := by
    rw [← heq]
    exact (List.prefix_append_right_inj back).mpr (hlast.trans (List.prefix_append word after))
  have hlength : word.length ≤ (back ++ word.dropLast).length := by
    have hword := List.length_pos_iff.mpr nonempty
    have hpos := List.length_pos_iff.mpr hback
    rw [List.length_append, List.length_dropLast]
    omega
  have hword := List.prefix_of_prefix_length_le (List.prefix_append word later) hlong hlength
  rw [hgap, List.append_assoc]
  exact hword.isInfix.trans (List.suffix_append front _).isInfix

/-- The occurrence that is found behind a part of a text, with the gap in front of it. -/
theorem exists_gap_of_find? {word before rest : Text} {nonempty : word ≠ []} {distance : Nat}
    (h : find? word ((before ++ rest).drop before.length) nonempty = some distance) :
    ∃ gap after, rest = gap ++ (word ++ after) ∧
      before.length + distance = (before ++ gap).length ∧
      before.length + distance + word.length = (before ++ gap ++ word).length ∧
      ∀ front back later, gap = front ++ back → back ≠ [] →
        back ++ (word ++ after) ≠ word ++ later := by
  rw [List.drop_left] at h
  obtain ⟨gap, after, rfl, rfl, hgap⟩ := find?_eq_some h
  refine ⟨gap, after, List.append_assoc _ _ _, ?_, ?_, ?_⟩
  · rw [List.length_append]
  · rw [List.length_append, List.length_append]
  · intro front back later hsplit hback
    exact not_begins_of_not_infix nonempty hgap hsplit hback

/-- From wherever the search goes on, what is not written yet comes first and the greedy rewriting
of the rest follows. -/
theorem exists_rewrites {word text : Text} (replacement : Text) (nonempty : word ≠ [])
    (copied search : Nat) : ∀ before rest : Text, text = before ++ rest → before.length = search →
      copied ≤ search →
      ∃ result, Units.characters.replaceFrom word replacement text nonempty copied search =
        before.drop copied ++ result ∧ Rewrites word replacement before rest result := by
  fun_induction Units.replaceFrom Units.characters word replacement text nonempty copied search with
  | case1 copied search hnone =>
    rintro before rest rfl rfl hcopied
    rw [List.drop_left] at hnone
    refine ⟨rest, List.drop_append_of_le_length hcopied, ?_⟩
    have hdone := @Rewrites.keep word replacement before [] [] rest ?_ (.done _)
    · simpa using hdone
    · rintro front back after rfl - hback
      rw [List.append_nil] at hback
      exact absurd ⟨front, after, by rw [hback, List.append_assoc]⟩ (find?_eq_none_iff.mp hnone)
  | case2 copied search distance hfound start stop hfree ih =>
    rintro before rest rfl rfl hcopied
    obtain ⟨gap, after, rfl, hstart, hstop, hgap⟩ := exists_gap_of_find? hfound
    have htext : before ++ (gap ++ (word ++ after)) = before ++ gap ++ word ++ after := by
      simp only [List.append_assoc]
    rw [htext, Units.isFree_characters_iff hstart hstop] at hfree
    obtain ⟨result, hresult, hrewrites⟩ := ih _ after htext hstop.symm (Nat.le_refl _)
    refine ⟨gap ++ (replacement ++ result), ?_, ?_⟩
    · have htake : (before ++ (gap ++ (word ++ after))).take start = before ++ gap := by
        rw [htext, List.append_assoc, show start = _ from hstart, List.take_left]
      have hwritten : (before ++ gap ++ word).drop stop = [] := by
        rw [show stop = _ from hstop, List.drop_length]
      rw [hresult, hwritten, htake, List.drop_append_of_le_length hcopied]
      simp only [List.append_assoc, List.nil_append]
    · refine Rewrites.keep gap ?_ (.replaced hfree hrewrites)
      intro front back later hpart hback hlater
      exact absurd hlater (hgap front back later hpart hback)
  | case3 copied search distance hfound start stop hblocked further ih =>
    rintro before rest rfl rfl hcopied
    obtain ⟨gap, after, rfl, hstart, hstop, hgap⟩ := exists_gap_of_find? hfound
    have htext : before ++ (gap ++ (word ++ after)) = before ++ gap ++ word ++ after := by
      simp only [List.append_assoc]
    rw [htext, Units.isFree_characters_iff hstart hstop] at hblocked
    -- The search goes on behind the first character of the word.
    obtain ⟨c, more, rfl⟩ := List.exists_cons_of_ne_nil nonempty
    have hfurther : further = 0 := Units.elim_more_characters _
    have hnext : (before ++ gap ++ [c]).length = start + 1 + further := by
      rw [List.length_append, ← hstart, hfurther, List.length_singleton]
    obtain ⟨result, hresult, hrewrites⟩ := ih (before ++ gap ++ [c]) (more ++ after)
      (by simp only [List.append_assoc, List.cons_append, List.nil_append]) hnext (by omega)
    refine ⟨gap ++ c :: result, ?_, ?_⟩
    · rw [hresult, List.append_assoc before, List.drop_append_of_le_length hcopied]
      simp only [List.append_assoc, List.singleton_append]
    · refine Rewrites.keep gap ?_ (.kept ?_ hrewrites)
      · intro front back later hpart hback hlater
        exact absurd hlater (hgap front back later hpart hback)
      · intro later hlater
        rwa [← @List.append_cancel_left _ (c :: more) after later hlater]

/-- A text with its words replaced is its greedy rewriting. -/
theorem rewrites_replaceWord {word : Text} (nonempty : word ≠ []) (text replacement : Text) :
    Rewrites word replacement [] text (replaceWord text word replacement) := by
  obtain ⟨result, hresult, hrewrites⟩ :=
    @exists_rewrites word text replacement nonempty 0 0 [] text rfl rfl (Nat.le_refl 0)
  rwa [replaceWord, Units.replace, dif_pos nonempty, hresult]

theorem Rewrites.replaceWord_eq {word text replacement result : Text} (nonempty : word ≠ [])
    (h : Rewrites word replacement [] text result) : replaceWord text word replacement = result :=
  (rewrites_replaceWord nonempty text replacement).unique nonempty h

/-! ## Bytes -/

theorem isBoundary_head?_utf8 (text : Text) :
    Units.bytes.isBoundary (utf8 text).head? = Units.characters.isBoundary text.head? := by
  cases text with
  | nil => rfl
  | cons c rest =>
    obtain ⟨first, behind, hencodes⟩ := exists_encodes c
    have hmem : first ∈ String.utf8EncodeChar c := hencodes.bytes_eq ▸ List.mem_cons_self
    rw [utf8_cons, hencodes.bytes_eq]
    exact congrArg (!·) (isAlphanum_ofUInt8 hmem)

theorem isBoundary_getLast?_utf8 (text : Text) :
    Units.bytes.isBoundary (utf8 text).getLast? = Units.characters.isBoundary text.getLast? := by
  rcases List.eq_nil_or_concat' text with rfl | ⟨front, c, rfl⟩
  · rfl
  · obtain ⟨first, behind, hencodes⟩ := exists_encodes c
    have hne : String.utf8EncodeChar c ≠ [] := hencodes.bytes_eq ▸ List.cons_ne_nil _ _
    have hbytes : (utf8 [c]) = String.utf8EncodeChar c := List.append_nil _
    rw [List.getLast?_concat, utf8_append, hbytes, List.getLast?_append_of_ne_nil _ hne,
      List.getLast?_eq_getLast_of_ne_nil hne]
    exact congrArg (!·) (isAlphanum_ofUInt8 (List.getLast_mem hne))

theorem isFree_utf8 (text : Text) (start stop : Nat) :
    Units.bytes.isFree (utf8 text) (offsetOf text start) (offsetOf text stop) =
      Units.characters.isFree text start stop := by
  rw [Units.isFree, Units.isFree, take_utf8, ← List.head?_drop, ← List.head?_drop, drop_utf8,
    isBoundary_getLast?_utf8, isBoundary_head?_utf8]

/-- The search over the bytes of a text finds and replaces what the search over its characters
does, and writes the same text. -/
theorem replaceFrom_utf8 {word : Text} (replacement text : Text) (nonempty : word ≠ [])
    {copied search : Nat} (hcopied : copied ≤ search) :
    Units.bytes.replaceFrom (utf8 word) (utf8 replacement) (utf8 text) (utf8_ne_nil nonempty)
        (offsetOf text copied) (offsetOf text search) =
      utf8 (Units.characters.replaceFrom word replacement text nonempty copied search) := by
  fun_induction Units.replaceFrom Units.characters word replacement text nonempty copied search with
  | case1 copied search hnone =>
    have hbytes : find? (utf8 word) ((utf8 text).drop (offsetOf text search))
        (utf8_ne_nil nonempty) = none := by
      rw [drop_utf8, find?_utf8 _ nonempty, hnone, Option.map_none]
    rw [Units.replaceFrom_of_none _ hbytes, drop_utf8]
  | case2 copied search distance hfound start stop hfree ih =>
    obtain ⟨hbytes, hstop, hlt⟩ := find?_drop_utf8 hfound
    have hle : copied ≤ start := Nat.le_add_right_of_le hcopied
    rw [Units.replaceFrom_of_some _ hbytes (offsetOf_add text search distance) hstop, isFree_utf8,
      if_pos hfree, ih (Nat.le_refl _), take_utf8, ← offsetOf_take hle, drop_utf8, utf8_append,
      utf8_append]
  | case3 copied search distance hfound start stop hblocked further ih =>
    obtain ⟨hbytes, hstop, hlt⟩ := find?_drop_utf8 hfound
    have hle : copied ≤ start + 1 + further := by omega
    have hfurther : further = 0 := Units.elim_more_characters _
    rw [Units.replaceFrom_of_some _ hbytes (offsetOf_add text search distance) hstop, isFree_utf8,
      if_neg hblocked, ← ih hle, hfurther]
    exact congrArg _ (offsetOf_succ hlt).symm

/-- Replacing a word that is not empty is the greedy rewriting of the text, and nothing else is. The
bytes of the result are what the search over the bytes writes. -/
theorem replaceWord_eq_iff_rewrites {word : Text} (nonempty : word ≠ []) (text replacement : Text) :
    (∀ result, replaceWord text word replacement = result ↔
        Rewrites word replacement [] text result) ∧
      Units.bytes.replace (utf8 text) (utf8 word) (utf8 replacement) =
        utf8 (replaceWord text word replacement) := by
  refine ⟨fun result => ⟨?_, fun h => h.replaceWord_eq nonempty⟩, ?_⟩
  · rintro rfl
    exact rewrites_replaceWord nonempty text replacement
  · have hbytes := replaceFrom_utf8 replacement text nonempty (Nat.le_refl 0)
    rwa [replaceWord, Units.replace, Units.replace, dif_pos nonempty,
      dif_pos (utf8_ne_nil nonempty)]

/-- Two occurrences do not count for their neighbour, and the one that overlaps with the second of
them does. -/
theorem replaceWord_eq_iff_rewrites_overlapping :
    let text : Text := ['é', 'a', '-', 'a', 'x', 'a', '-', 'a', '-', 'a', 'é']
    let word : Text := ['a', '-', 'a']
    let result : Text := ['é', 'a', '-', 'a', 'x', 'a', '-', 'ü', 'é']
    word ≠ [] ∧ replaceWord text word ['ü'] = result ∧ Rewrites word ['ü'] [] text result ∧
      Units.bytes.replace (utf8 text) (utf8 word) (utf8 ['ü']) = utf8 result := by
  intro text word result
  have nonempty : word ≠ [] := by decide
  have hresult : replaceWord text word ['ü'] = result := by cbv
  obtain ⟨hiff, hbytes⟩ := replaceWord_eq_iff_rewrites nonempty text ['ü']
  rw [hresult] at hbytes
  exact ⟨nonempty, hresult, (hiff result).mp hresult, hbytes⟩

end Stencil
