import Mathlib.Order.Monotone.Defs
import Stencil.Proofs.Text.Bytes
import Stencil.Proofs.Text.Lines

/-!
# Line tables count line feeds

The bisection of a line table finds what counting the feeds before an offset gives: the number of
the line, and behind the last of them its start. The offsets may lie on a feed, behind it or past
the end. A table over the bytes of a text gives the same lines as one over its characters.
-/

namespace Stencil.LineTable

open Text

section Units

variable {α : Type} {feed : α} {units : List α} {offset start : Nat}

/-- A start is the position right behind the last feed before an offset, or 0 if there is none. -/
structure IsLineStart (feed : α) (units : List α) (offset start : Nat) : Prop where
  behind : start = 0 ∨ ∃ i, i < offset ∧ units[i]? = some feed ∧ start = i + 1
  last : ∀ i, i < offset → units[i]? = some feed → i < start

namespace IsLineStart

theorem le_offset (h : IsLineStart feed units offset start) : start ≤ offset := by
  rcases h.behind with rfl | ⟨i, hlt, -, rfl⟩
  · exact Nat.zero_le offset
  · exact hlt

/-- A later offset has no earlier start. -/
theorem le {later other : Nat} (h : IsLineStart feed units offset start)
    (hother : IsLineStart feed units later other) (hle : offset ≤ later) : start ≤ other := by
  rcases h.behind with rfl | ⟨i, hlt, hfeed, rfl⟩
  · exact Nat.zero_le other
  · exact hother.last i (Nat.lt_of_lt_of_le hlt hle) hfeed

theorem unique {other : Nat} (h : IsLineStart feed units offset start)
    (hother : IsLineStart feed units offset other) : start = other :=
  Nat.le_antisymm (h.le hother (Nat.le_refl offset)) (hother.le h (Nat.le_refl offset))

/-- Whole lines in front of a part without feeds end at a start. -/
theorem of_split {whole part : List α} (hsplit : units.take offset = whole ++ part)
    (hwhole : EndsIn feed whole) (hpart : feed ∉ part) :
    IsLineStart feed units offset whole.length := by
  constructor
  · rcases hwhole.eq_nil_or_concat with rfl | ⟨front, rfl⟩
    · exact Or.inl rfl
    · have hfeed : (units.take offset)[front.length]? = some feed := by
        rw [hsplit, List.append_assoc, List.getElem?_append_right (Nat.le_refl _), Nat.sub_self]
        rfl
      rw [List.getElem?_take, Option.ite_none_right_eq_some] at hfeed
      obtain ⟨hlt, hunit⟩ := hfeed
      exact Or.inr ⟨front.length, hlt, hunit, List.length_append⟩
  · intro i hlt hunit
    by_contra hge
    have hfeed : (units.take offset)[i]? = some feed := by
      rw [List.getElem?_take_of_lt hlt, hunit]
    rw [hsplit, List.getElem?_append_right (Nat.le_of_not_lt hge)] at hfeed
    exact hpart (List.mem_of_getElem? hfeed)

end IsLineStart

/-- The bisection stays inside the table and finds the start of the line. -/
theorem isLineStart_lineStart [DecidableEq α] (feed : α) (units : List α) (offset : Nat) :
    let table := ofUnits feed units
    IsLineStart feed units offset (table.lineStart offset) ∧
      table.starts[table.index offset]? = some (table.lineStart offset) := by
  intro table
  obtain ⟨whole, part, hsplit, hwhole, hpart, hindex, hentry⟩ :=
    exists_whole_part feed units offset
  have hstart : table.lineStart offset = whole.length := by
    rw [lineStart, hindex, Array.getD_eq_getD_getElem?, hentry]
    rfl
  rw [hstart, hindex]
  exact ⟨.of_split hsplit hwhole hpart, hentry⟩

end Units

/-! ## Bytes -/

/-- No other character has the line feed among its bytes. -/
theorem feed_not_mem_utf8 {text : Text} (h : '\n' ∉ text) : (10 : UInt8) ∉ utf8 text :=
  fun hmem => h (mem_of_mem_utf8 hmem (by decide))

/-- A text has as many line feeds among its bytes as among its characters. -/
theorem count_feed_utf8 (text : Text) : (utf8 text).count 10 = text.count '\n' := by
  induction text using line_induction with
  | last line hline =>
    rw [List.count_eq_zero_of_not_mem hline,
      List.count_eq_zero_of_not_mem (feed_not_mem_utf8 hline)]
  | step line rest hline ih =>
    have hfeed : utf8 ('\n' :: rest) = 10 :: utf8 rest := rfl
    rw [utf8_append, hfeed, List.count_append, List.count_append, List.count_cons_self,
      List.count_cons_self, ih, List.count_eq_zero_of_not_mem hline,
      List.count_eq_zero_of_not_mem (feed_not_mem_utf8 hline)]

theorem endsIn_utf8 {text : Text} (h : EndsIn '\n' text) : EndsIn (10 : UInt8) (utf8 text) := by
  rcases h.eq_nil_or_concat with rfl | ⟨front, rfl⟩
  · exact endsIn_nil 10
  · rw [utf8_append]
    exact endsIn_append_singleton 10 (utf8 front)

/-- A line begins at the byte offset of the position where it begins. -/
theorem isLineStart_utf8 (content : Text) (position : Nat) :
    IsLineStart 10 (utf8 content) (offsetOf content position)
      (offsetOf content ((ofText content).lineStart position)) := by
  obtain ⟨whole, part, hsplit, hwhole, hpart, -, -⟩ := exists_whole_part '\n' content position
  have hstart : (ofText content).lineStart position = whole.length :=
    (isLineStart_lineStart '\n' content position).1.unique (.of_split hsplit hwhole hpart)
  have hbytes : (utf8 content).take (offsetOf content position) = utf8 whole ++ utf8 part := by
    rw [take_utf8, hsplit, utf8_append]
  have hoffset : offsetOf content whole.length = (utf8 whole).length := by
    rw [length_utf8, offsetOf, ← List.take_append_drop position content, hsplit,
      List.append_assoc, List.take_left]
  rw [hstart, hoffset]
  exact .of_split hbytes (endsIn_utf8 hwhole) (feed_not_mem_utf8 hpart)

/-- A position is on the same line by the table over the bytes. -/
theorem line_offsetOf (content : Text) (position : Nat) :
    (ofUnits 10 (utf8 content)).line (offsetOf content position) =
      (ofText content).line position := by
  rw [line_ofUnits, take_utf8, count_feed_utf8, ofText, line_ofUnits]

/-- The line of a position begins at the same place by the table over the bytes, which has an entry
for it. -/
theorem lineStart_offsetOf (content : Text) (position : Nat) :
    let table := ofUnits (10 : UInt8) (utf8 content)
    table.lineStart (offsetOf content position) =
        offsetOf content ((ofText content).lineStart position) ∧
      table.starts[table.index (offsetOf content position)]? =
        some (table.lineStart (offsetOf content position)) := by
  intro table
  obtain ⟨hstart, hentry⟩ := isLineStart_lineStart (10 : UInt8) (utf8 content)
    (offsetOf content position)
  exact ⟨hstart.unique (isLineStart_utf8 content position), hentry⟩

/-- The table over the bytes of a text answers any offset by counting: the line is one more than the
line feeds before the offset, and it begins behind the last of them. So a line begins no later than
the offset, and no earlier for a later one. Documents are read with the table over characters,
which gives the same lines and starts. -/
theorem line_lineStart_utf8 (content : Text) :
    let table := ofUnits (10 : UInt8) (utf8 content)
    (∀ offset, table.line offset = 1 + ((utf8 content).take offset).count 10 ∧
      (∀ start, table.lineStart offset = start ↔ IsLineStart 10 (utf8 content) offset start) ∧
      table.starts[table.index offset]? = some (table.lineStart offset) ∧
      table.lineStart offset ≤ offset) ∧
    Monotone table.lineStart ∧
    ∀ position, table.line (offsetOf content position) = (ofText content).line position ∧
      table.lineStart (offsetOf content position) =
        offsetOf content ((ofText content).lineStart position) := by
  intro table
  have hstarts := isLineStart_lineStart (10 : UInt8) (utf8 content)
  refine ⟨fun offset => ?_, fun offset later hle => ?_, fun position => ⟨?_, ?_⟩⟩
  · obtain ⟨hstart, hentry⟩ := hstarts offset
    refine ⟨?_, fun start => ⟨?_, hstart.unique⟩, hentry, hstart.le_offset⟩
    · rw [line_ofUnits, Nat.add_comm]
    · rintro rfl
      exact hstart
  · exact (hstarts offset).1.le (hstarts later).1 hle
  · exact line_offsetOf content position
  · exact (lineStart_offsetOf content position).1

end Stencil.LineTable
