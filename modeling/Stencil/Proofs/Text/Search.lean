import Stencil.Text.Search

/-!
# First occurrences

A search finds the first occurrence exactly: nothing is found only where the needle does not occur,
and a split of the text whose front holds no occurrence is the split that the search finds. The
delimiters of comments are pairs of characters, so occurrences of pairs across a seam are counted
separately.
-/

namespace Stencil.Text

variable {α : Type}

/-- A pair occurs in a concatenation inside a part or across the seam. -/
theorem pair_infix_append {a b : α} {left right : List α} :
    [a, b] <:+: left ++ right ↔ [a, b] <:+: left ∨ [a, b] <:+: right ∨
      (left.getLast? = some a ∧ right.head? = some b) := by
  induction left with
  | nil => simp
  | cons c rest ih =>
    rw [List.cons_append, List.infix_cons_iff, ih, List.infix_cons_iff]
    cases rest with
    | nil =>
      have hshort : ¬ [a, b] <:+: ([] : List α) := by simp
      cases right with
      | nil => simp
      | cons d right =>
        simp only [List.nil_append, List.cons_prefix_cons, List.nil_prefix, and_true,
          List.getLast?_singleton, List.head?_cons, Option.some.injEq, List.getLast?_nil,
          List.prefix_nil, List.cons_ne_nil, and_false, hshort, false_or]
        grind
    | cons d rest =>
      simp only [List.cons_append, List.cons_prefix_cons, List.nil_prefix, List.getLast?_cons_cons]
      exact or_assoc.symm

/-- Two different items cannot overlap with another occurrence of them. -/
theorem not_pair_infix_append_singleton {a b : α} {before : List α} (hab : a ≠ b)
    (hfree : ¬ [a, b] <:+: before) : ¬ [a, b] <:+: before ++ [a] := by
  rw [pair_infix_append]
  rintro (h | h | ⟨-, h⟩)
  · exact hfree h
  · simpa using h.length_le
  · exact hab (by simpa using h)

variable [BEq α]

/-- The start of the count only moves the answer. -/
theorem findFrom_eq_map (needle haystack : List α) (position : Nat) :
    findFrom needle position haystack = (findFrom needle 0 haystack).map (position + ·) := by
  induction haystack generalizing position with
  | nil =>
    unfold findFrom
    split <;> simp
  | cons item rest ih =>
    unfold findFrom
    split
    · simp
    · rw [ih (position + 1), ih (0 + 1), Option.map_map]
      congr 1
      funext found
      simp only [Function.comp_apply]
      omega

/-- One step of a search. -/
theorem find?_cons (needle : List α) (nonempty : needle ≠ []) (item : α) (rest : List α) :
    find? needle (item :: rest) nonempty =
      if needle.isPrefixOf (item :: rest) then some 0
      else (find? needle rest nonempty).map (· + 1) := by
  unfold find?
  rw [findFrom]
  split
  · rfl
  · rw [findFrom_eq_map]
    congr 1
    funext found
    omega

theorem find?_nil (needle : List α) (nonempty : needle ≠ []) :
    find? needle [] nonempty = none := by
  cases needle with
  | nil => exact absurd rfl nonempty
  | cons item rest => rfl

variable [LawfulBEq α]

/-- Nothing is found exactly where the needle does not occur. -/
theorem find?_eq_none_iff {needle haystack : List α} {nonempty : needle ≠ []} :
    find? needle haystack nonempty = none ↔ ¬ needle <:+: haystack := by
  induction haystack with
  | nil => simp [find?_nil, nonempty]
  | cons item rest ih =>
    rw [find?_cons, List.infix_cons_iff, ← List.isPrefixOf_iff_prefix]
    split
    · next hp => simp [hp]
    · next hp => simp [hp, ih]

/-- What is found is an occurrence in front of which there is none, not even an overlapping one. -/
theorem find?_eq_some {needle haystack : List α} {nonempty : needle ≠ []} {found : Nat}
    (h : find? needle haystack nonempty = some found) :
    ∃ before after, haystack = before ++ needle ++ after ∧ before.length = found ∧
      ¬ needle <:+: before ++ needle.dropLast := by
  induction haystack generalizing found with
  | nil => simp [find?_nil] at h
  | cons item rest ih =>
    rw [find?_cons] at h
    split at h
    · next hp =>
      obtain ⟨after, hafter⟩ := List.isPrefixOf_iff_prefix.mp hp
      refine ⟨[], after, hafter.symm, Option.some.inj h, ?_⟩
      intro hocc
      have hlen := hocc.length_le
      have hpos := List.length_pos_iff.mpr nonempty
      simp only [List.nil_append, List.length_dropLast] at hlen
      omega
    · next hp =>
      obtain ⟨tail, htail, rfl⟩ := Option.map_eq_some_iff.mp h
      obtain ⟨before, after, rfl, rfl, hfree⟩ := ih htail
      refine ⟨item :: before, after, rfl, rfl, ?_⟩
      rw [List.cons_append, List.infix_cons_iff]
      rintro (hpre | hocc)
      · apply hp
        rw [List.isPrefixOf_iff_prefix]
        refine hpre.trans ⟨needle.drop (needle.length - 1) ++ after, ?_⟩
        rw [List.cons_append, List.append_assoc, ← List.append_assoc needle.dropLast,
          List.dropLast_eq_take, List.take_append_drop, ← List.append_assoc]
      · exact hfree hocc

/-- The first occurrence is found. -/
theorem find?_append {needle before after : List α} (nonempty : needle ≠ [])
    (hfree : ¬ needle <:+: before ++ needle.dropLast) :
    find? needle (before ++ needle ++ after) nonempty = some before.length := by
  induction before with
  | nil =>
    cases needle with
    | nil => exact absurd rfl nonempty
    | cons item rest =>
      rw [List.nil_append, List.cons_append, find?_cons, if_pos]
      · rfl
      · exact List.isPrefixOf_iff_prefix.mpr (List.prefix_append _ _)
  | cons item rest ih =>
    rw [List.cons_append, List.infix_cons_iff] at hfree
    have hrest := ih fun h => hfree (Or.inr h)
    rw [List.cons_append, List.cons_append, find?_cons, if_neg, hrest]
    · rfl
    · rw [List.isPrefixOf_iff_prefix]
      intro hpre
      apply hfree
      left
      rw [List.prefix_iff_eq_take] at hpre ⊢
      have hlen : needle.length ≤ (item :: (rest ++ needle.dropLast)).length := by
        simp only [List.length_cons, List.length_append, List.length_dropLast]
        omega
      calc needle = (item :: (rest ++ needle ++ after)).take needle.length := hpre
        _ = (item :: (rest ++ needle.dropLast) ++
            (needle.drop (needle.length - 1) ++ after)).take needle.length := by
          congr 1
          rw [List.cons_append, List.append_assoc rest, List.append_assoc rest,
            ← List.append_assoc needle.dropLast, List.dropLast_eq_take, List.take_append_drop]
        _ = (item :: (rest ++ needle.dropLast)).take needle.length :=
          List.take_append_of_le_length hlen

/-- Where a needle occurs it has a first occurrence. -/
theorem exists_first_of_infix {needle haystack : List α} (nonempty : needle ≠ [])
    (h : needle <:+: haystack) :
    ∃ before after, haystack = before ++ needle ++ after ∧
      ¬ needle <:+: before ++ needle.dropLast := by
  cases hfind : find? needle haystack nonempty with
  | none => exact absurd h (find?_eq_none_iff.mp hfind)
  | some found =>
    obtain ⟨before, after, hsplit, -, hfree⟩ := find?_eq_some hfind
    exact ⟨before, after, hsplit, hfree⟩

/-- A text has one split at the first occurrence of a needle. -/
theorem append_needle_inj {needle before before' after after' : List α} (nonempty : needle ≠ [])
    (hfree : ¬ needle <:+: before ++ needle.dropLast)
    (hfree' : ¬ needle <:+: before' ++ needle.dropLast)
    (h : before ++ needle ++ after = before' ++ needle ++ after') :
    before = before' ∧ after = after' := by
  have hfound := @find?_append _ _ _ _ _ after nonempty hfree
  rw [h, find?_append nonempty hfree'] at hfound
  rw [List.append_assoc, List.append_assoc] at h
  obtain ⟨hbefore, hafter⟩ := List.append_inj h (Option.some.inj hfound).symm
  exact ⟨hbefore, List.append_cancel_left hafter⟩

/-- Two different items that do not occur in front of their first occurrence are found there. -/
theorem find?_pair_append {a b : α} {before : List α} (after : List α) (hab : a ≠ b)
    (hfree : ¬ [a, b] <:+: before) :
    find? [a, b] (before ++ a :: b :: after) (by simp) = some before.length := by
  have hfound := @find?_append _ _ _ [a, b] before after (by simp)
    (not_pair_infix_append_singleton hab hfree)
  simpa using hfound

theorem append_pair_inj {a b : α} {before before' after after' : List α} (hab : a ≠ b)
    (hfree : ¬ [a, b] <:+: before) (hfree' : ¬ [a, b] <:+: before')
    (h : before ++ a :: b :: after = before' ++ a :: b :: after') :
    before = before' ∧ after = after' := by
  apply @append_needle_inj _ _ _ [a, b] before before' after after' (by simp)
    (not_pair_infix_append_singleton hab hfree) (not_pair_infix_append_singleton hab hfree')
  simpa using h

/-- A front without the pair, and without its first item at the end, is passed over. -/
theorem find?_pair_append_of_not {a b : α} {front : List α} (rest : List α)
    (hfree : ¬ [a, b] <:+: front) (hlast : front.getLast? ≠ some a) :
    find? [a, b] (front ++ rest) (by simp) =
      (find? [a, b] rest (by simp)).map (front.length + ·) := by
  induction front with
  | nil => simp
  | cons c front ih =>
    rw [List.infix_cons_iff, not_or] at hfree
    have hstep : ([a, b].isPrefixOf (c :: front ++ rest)) = false := by
      rw [← Bool.not_eq_true, List.isPrefixOf_iff_prefix]
      cases front with
      | nil =>
        intro hpre
        obtain ⟨rfl, -⟩ := List.cons_prefix_cons.mp hpre
        exact hlast rfl
      | cons d front =>
        intro hpre
        obtain ⟨rfl, htail⟩ := List.cons_prefix_cons.mp hpre
        obtain ⟨rfl, -⟩ := List.cons_prefix_cons.mp htail
        exact hfree.1 (List.prefix_append [a, b] front)
    have hrest : front.getLast? ≠ some a := by
      cases front with
      | nil => simp
      | cons d front => rwa [List.getLast?_cons_cons] at hlast
    rw [List.cons_append, find?_cons, ← List.cons_append, hstep, ih hfree.2 hrest, Option.map_map]
    simp only [Bool.false_eq_true, if_false]
    congr 1
    funext found
    simp only [Function.comp_apply, List.length_cons]
    omega

theorem find?_pair_eq_some {a b : α} {haystack : List α} {found : Nat}
    {nonempty : [a, b] ≠ []} (h : find? [a, b] haystack nonempty = some found) :
    ∃ before after, haystack = before ++ a :: b :: after ∧ before.length = found ∧
      ¬ [a, b] <:+: before := by
  obtain ⟨before, after, rfl, hlen, hfree⟩ := find?_eq_some h
  refine ⟨before, after, by simp, hlen, fun hocc => hfree ?_⟩
  exact hocc.trans (List.prefix_append _ _).isInfix

end Stencil.Text
