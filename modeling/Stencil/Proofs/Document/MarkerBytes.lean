import Stencil.Proofs.Comment.Bytes
import Stencil.Proofs.Document.MarkerLine
import Stencil.Proofs.Text.LineTable
import Stencil.Proofs.Text.Slice

/-!
# What a marker takes, by bytes

A marker takes its indentation and the rest of its line also where they are looked for among bytes.
The blanks in front of it are looked at in a range that may begin inside a character, and those
behind it by a cursor that may run to the end; neither leaves the bytes, and what is found are the
offsets of the positions.
-/

namespace Stencil.Bytes

open Text Comment Block

/-- Where the line begins that holds an offset, if the table has an entry for it. -/
def lineStart? (lines : LineTable) (offset : Nat) : Option Nat := lines.starts[lines.index offset]?

/-- The offset from which a marker comment counts: the start of its line, or `floor` if that is
later, when only blanks stand in between; otherwise the comment itself. -/
def indentStart? (bytes : List UInt8) (lines : LineTable) (floor start : Nat) : Option Nat := do
  let lineStart := max (← lineStart? lines start) floor
  if lineStart ≤ start then
    let indent ← slice? bytes ⟨lineStart, start⟩
    return if indent.all (onByte isBlank) then lineStart else start
  else return start

/-- The offset at which the text after a marker comment begins: behind the blanks and one line break
if nothing else follows on the line, and otherwise directly behind the comment. -/
def afterMarker? (bytes : List UInt8) (stop : Nat) : Option Nat := do
  let cursor ← skip? (onByte isBlank) bytes stop bytes.length
  let rest ← slice? bytes ⟨cursor, bytes.length⟩
  return if (utf8 ['\r', '\n']).isPrefixOf rest then cursor + 2
    else if (utf8 ['\n']).isPrefixOf rest then cursor + 1
    else if rest.isEmpty then cursor
    else stop

variable {text : Text} {floor start stop offset : Nat}

theorem lineStart?_offsetOf (text : Text) (start : Nat) :
    lineStart? (LineTable.ofUnits 10 (utf8 text)) (offsetOf text start) =
      some (offsetOf text ((LineTable.ofText text).lineStart start)) := by
  obtain ⟨hstart, hentry⟩ := LineTable.lineStart_offsetOf text start
  rw [lineStart?, hentry, hstart]

/-- All bytes of a text are blank exactly if the text is. -/
theorem all_onByte_isBlank (text : Text) :
    (utf8 text).all (onByte isBlank) = text.all isBlank := by
  rw [Bool.eq_iff_iff, List.all_eq_true, List.all_eq_true]
  exact forall_onByte_iff fun _ => isBlank_of_le

/-- Indentation is looked for at the offsets of positions. -/
theorem indentStart?_offsetOf (hfloor : floor ≤ text.length) (hstart : start ≤ text.length) :
    indentStart? (utf8 text) (LineTable.ofUnits 10 (utf8 text)) (offsetOf text floor)
        (offsetOf text start) =
      some (offsetOf text (indentStart text (LineTable.ofText text) floor start)) := by
  have hline : (LineTable.ofText text).lineStart start ≤ text.length :=
    Nat.le_trans (LineTable.isLineStart_lineStart '\n' text start).1.le_offset hstart
  obtain ⟨first, hfirst⟩ : ∃ first, max ((LineTable.ofText text).lineStart start) floor = first :=
    ⟨_, rfl⟩
  have hle : first ≤ text.length := hfirst ▸ Nat.max_le.mpr ⟨hline, hfloor⟩
  have hmax : max (offsetOf text ((LineTable.ofText text).lineStart start))
      (offsetOf text floor) = offsetOf text first := by
    rw [← hfirst]
    exact (Monotone.map_max fun _ _ => offsetOf_le_offsetOf text).symm
  simp only [indentStart?, lineStart?_offsetOf, Option.bind_eq_bind, Option.bind_some, hmax,
    indentStart, hfirst, offsetOf_le_offsetOf_iff hle]
  by_cases hbefore : first ≤ start
  · have hslice := @slice?_offsetOf text ⟨first, start⟩ hbefore hstart
    rw [if_pos hbefore, hslice]
    simp only [Option.bind_some, all_onByte_isBlank, hbefore, true_and, Option.pure_def]
    split <;> rfl
  · simp only [hbefore, false_and, if_false, Option.pure_def]

/-- From inside a character on, the bytes up to a position are not all blank. -/
theorem exists_slice?_inside (hoffset : offset ≤ byteSize text)
    (hinside : offset ≠ offsetOf text (positionAfter offset text))
    (hafter : positionAfter offset text ≤ start) :
    ∃ bytes, slice? (utf8 text) ⟨offset, offsetOf text start⟩ = some bytes ∧
      bytes.all (onByte isBlank) = false := by
  obtain ⟨behind, hbehind, hdrop, hlength⟩ := exists_drop_utf8 offset text
  rw [Nat.min_eq_left hoffset] at hlength
  cases behind with
  | nil => exact absurd hlength hinside
  | cons byte behind =>
    have hnext : offset < offsetOf text (positionAfter offset text) := by
      rw [offsetOf, ← hlength, List.length_cons]
      omega
    have hlt := Nat.lt_of_lt_of_le hnext (offsetOf_le_offsetOf text hafter)
    have hsize : offsetOf text start ≤ (utf8 text).length := by
      rw [length_utf8]
      exact offsetOf_le_byteSize text start
    refine ⟨_, if_pos ⟨Nat.le_of_lt hlt, hsize⟩, ?_⟩
    obtain ⟨more, hmore⟩ := Nat.exists_eq_add_of_lt hlt
    have hblank : onByte isBlank byte = false := by
      refine isBlank_of_le ?_
      rw [toNat_ofUInt8]
      exact (hbehind byte List.mem_cons_self).1
    have htake : offsetOf text start - offset = more + 1 := by omega
    simp only [htake, hdrop, List.cons_append, List.take_succ_cons, List.all_cons, hblank,
      Bool.false_and]

/-- A character of several bytes is no indentation. -/
theorem indentStart_of_size {front rest : Text} {c : Char} (htext : text = front ++ c :: rest)
    (hsize : 1 < c.utf8Size) (hlt : front.length < start)
    (hline : (LineTable.ofText text).lineStart start ≤ front.length) :
    indentStart text (LineTable.ofText text) front.length start = start := by
  have hblank : (text.slice ⟨front.length, start⟩).all isBlank = false := by
    obtain ⟨more, hmore⟩ := Nat.exists_eq_add_of_lt hlt
    have htake : start - front.length = more + 1 := by omega
    simp only [slice, htake, htext, List.drop_left, List.take_succ_cons, List.all_cons,
      isBlank_of_size hsize, Bool.false_and]
  simp only [indentStart, Nat.max_eq_right hline, hblank, Bool.false_eq_true, and_false, if_false]

/-- The rest of a character is no indentation. -/
theorem indentStart?_inside (hoffset : offset ≤ byteSize text)
    (hinside : offset ≠ offsetOf text (positionAfter offset text))
    (hafter : positionAfter offset text ≤ start)
    (hline : offsetOf text ((LineTable.ofText text).lineStart start) ≤ offset) :
    indentStart? (utf8 text) (LineTable.ofUnits 10 (utf8 text)) offset (offsetOf text start) =
      some (offsetOf text start) := by
  obtain ⟨bytes, hslice, hblank⟩ := exists_slice?_inside hoffset hinside hafter
  have hle : offset ≤ offsetOf text start :=
    Nat.le_trans (le_offsetOf_positionAfter hoffset) (offsetOf_le_offsetOf text hafter)
  simp only [indentStart?, lineStart?_offsetOf, Option.bind_eq_bind, Option.bind_some,
    Nat.max_eq_right hline, if_pos hle, hslice, hblank, Bool.false_eq_true, if_false,
    Option.pure_def]

/-- Indentation is looked for from an offset on that may fall into a character. The rest of that
character is not blank, and neither is the character. -/
theorem indentStart?_utf8 (hoffset : offset ≤ byteSize text)
    (hafter : positionAfter offset text ≤ start) (hstart : start ≤ text.length) :
    indentStart? (utf8 text) (LineTable.ofUnits 10 (utf8 text)) offset (offsetOf text start) =
      some (offsetOf text
        (indentStart text (LineTable.ofText text) (positionWithin offset text) start)) := by
  have hbelow := offsetOf_positionWithin_le offset text
  have habove := le_offsetOf_positionAfter hoffset
  rcases positionWithin_eq_or offset text with heq | ⟨front, c, rest, htext, hwithin, hnext, hsize⟩
  · have hboundary := Nat.le_antisymm hbelow (heq ▸ habove)
    rw [← indentStart?_offsetOf (heq ▸ positionAfter_le_length offset text) hstart, hboundary]
  · rw [hwithin] at hbelow ⊢
    have hlt : front.length < start := by omega
    by_cases hline : (LineTable.ofText text).lineStart start ≤ front.length
    · have hinside : offset ≠ offsetOf text (positionAfter offset text) := by
        intro heq
        rw [heq, hnext, positionWithin_offsetOf (by omega)] at hwithin
        omega
      have hfirst := Nat.le_trans (offsetOf_le_offsetOf text hline) hbelow
      rw [indentStart_of_size htext hsize hlt hline,
        indentStart?_inside hoffset hinside hafter hfirst]
    -- The line begins behind the character, so the search does not reach back to it.
    · rw [hnext] at habove
      have hbehind := offsetOf_le_offsetOf text (Nat.lt_of_not_le hline)
      have hmax : max (offsetOf text ((LineTable.ofText text).lineStart start)) offset =
          max (offsetOf text ((LineTable.ofText text).lineStart start))
            (offsetOf text front.length) := by
        rw [Nat.max_eq_left (Nat.le_trans habove hbehind), Nat.max_eq_left]
        exact Nat.le_trans hbelow (Nat.le_trans habove hbehind)
      rw [← indentStart?_offsetOf (by omega) hstart]
      simp only [indentStart?, lineStart?_offsetOf, Option.bind_eq_bind, Option.bind_some, hmax]

section

variable {front blanks after : Text} (hblanks : ∀ c ∈ blanks, isBlank c = true)
  (hafter : ∀ c ∈ after.head?, isBlank c = false)

include hblanks hafter

/-- The cursor behind a marker stops at the first character that is not blank. -/
theorem skip?_blanks :
    skip? (onByte isBlank) (utf8 (front ++ blanks ++ after)) (byteSize front)
        (utf8 (front ++ blanks ++ after)).length =
      some (byteSize (front ++ blanks)) := by
  rw [byteSize_append, ← length_utf8 front, ← length_utf8 blanks, utf8_append, utf8_append]
  refine skip?_append ((forall_onByte_iff fun _ => isBlank_of_le).mpr hblanks) ?_ (Nat.le_refl _)
    fun _ byte hbyte => ?_
  · simp only [List.length_append]
    omega
  · obtain ⟨c, hc, hmem⟩ := head?_utf8 hbyte
    rw [onByte_eq (fun _ => isBlank_of_le) hmem, hafter c hc]

/-- Where the text after a marker begins is told by what the blanks end at. -/
theorem afterMarker?_blanks :
    afterMarker? (utf8 (front ++ blanks ++ after)) (byteSize front) =
      some (if ['\r', '\n'].isPrefixOf after then byteSize (front ++ blanks) + 2
        else if ['\n'].isPrefixOf after then byteSize (front ++ blanks) + 1
        else if after.isEmpty then byteSize (front ++ blanks)
        else byteSize front) := by
  have hslice : slice? (utf8 (front ++ blanks ++ after))
      ⟨byteSize (front ++ blanks), (utf8 (front ++ blanks ++ after)).length⟩ =
        some (utf8 after) :=
    slice?_rest (utf8_append _ _) (length_utf8 _)
  have hprefix : ∀ feed : Text, (utf8 feed).isPrefixOf (utf8 after) = feed.isPrefixOf after := by
    intro feed
    rw [Bool.eq_iff_iff, List.isPrefixOf_iff_prefix, List.isPrefixOf_iff_prefix,
      utf8_isPrefix_iff]
  have hempty : (utf8 after).isEmpty = after.isEmpty := by
    cases after with
    | nil => rfl
    | cons c after =>
      rw [List.isEmpty_cons, List.isEmpty_eq_false_iff]
      exact utf8_ne_nil (List.cons_ne_nil c after)
  simp only [afterMarker?, skip?_blanks hblanks hafter, hslice, hprefix, hempty,
    Option.bind_eq_bind, Option.bind_some, Option.pure_def]

/-- How much of the text behind a marker belongs to it is told by what the blanks end at. -/
theorem lineRest_cases :
    (after = [] ∧ lineRest (blanks ++ after) = blanks.length) ∨
      (∃ more, after = '\n' :: more ∧ lineRest (blanks ++ after) = blanks.length + 1) ∨
      (∃ more, after = '\r' :: '\n' :: more ∧ lineRest (blanks ++ after) = blanks.length + 2) ∨
      (after ≠ [] ∧ ¬ ['\n'] <+: after ∧ ¬ ['\r', '\n'] <+: after ∧
        lineRest (blanks ++ after) = 0) := by
  rw [lineRest, takeWhile_run hblanks hafter, List.drop_left]
  split
  · exact Or.inl ⟨rfl, rfl⟩
  · exact Or.inr (Or.inl ⟨_, rfl, rfl⟩)
  · exact Or.inr (Or.inr (Or.inl ⟨_, rfl, rfl⟩))
  · next hempty hfeed hreturn =>
    refine Or.inr (Or.inr (Or.inr ⟨hempty, ?_, ?_, rfl⟩))
    · rintro ⟨more, hmore⟩
      exact hfeed more hmore.symm
    · rintro ⟨more, hmore⟩
      exact hreturn more hmore.symm

end

/-- What a marker takes of the text behind it ends at the offset of a position. -/
theorem afterMarker?_offsetOf (hstop : stop ≤ text.length) :
    afterMarker? (utf8 text) (offsetOf text stop) =
      some (offsetOf text (afterMarker text stop)) := by
  obtain ⟨front, behind, rfl, rfl⟩ : ∃ front behind, text = front ++ behind ∧ front.length = stop :=
    ⟨_, _, (List.take_append_drop stop text).symm, List.length_take_of_le hstop⟩
  obtain ⟨blanks, after, rfl, hblanks, hafter⟩ : ∃ blanks after, behind = blanks ++ after ∧
      (∀ c ∈ blanks, isBlank c = true) ∧ ∀ c ∈ after.head?, isBlank c = false :=
    ⟨_, _, List.takeWhile_append_dropWhile.symm, fun _ => List.mem_takeWhile_imp,
      head?_dropWhile⟩
  have hoffset : ∀ taken rest, after = taken ++ rest →
      offsetOf (front ++ (blanks ++ after)) (front.length + (blanks.length + taken.length)) =
        byteSize (front ++ blanks) + byteSize taken := by
    rintro taken rest rfl
    have hsplit : front ++ (blanks ++ (taken ++ rest)) = front ++ blanks ++ taken ++ rest := by
      simp only [List.append_assoc]
    rw [hsplit, ← Nat.add_assoc, ← List.length_append, ← List.length_append, offsetOf_append,
      byteSize_append]
  rw [afterMarker, List.drop_left, offsetOf_append, ← List.append_assoc,
    afterMarker?_blanks hblanks hafter, Option.some.injEq, List.append_assoc]
  rcases lineRest_cases hblanks hafter with ⟨rfl, hrest⟩ | ⟨more, rfl, hrest⟩ |
    ⟨more, rfl, hrest⟩ | ⟨hempty, hfeed, hreturn, hrest⟩ <;> rw [hrest]
  · exact (hoffset [] [] rfl).symm
  · exact (hoffset ['\n'] more rfl).symm
  · exact (hoffset ['\r', '\n'] more rfl).symm
  · rw [← List.isPrefixOf_iff_prefix] at hfeed hreturn
    rw [if_neg hreturn, if_neg hfeed, if_neg (by simpa using hempty), Nat.add_zero,
      offsetOf_append]

end Stencil.Bytes
