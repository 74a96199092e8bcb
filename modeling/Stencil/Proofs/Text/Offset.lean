import Stencil.Proofs.Text.Runs
import Stencil.Text.Offset

/-!
# Slices and byte offsets

Positions and byte offsets grow together, and every position is a boundary between characters of
the UTF-8 text. A byte offset that is no boundary falls into a character of several bytes, which
stands between the two positions that the offset has.
-/

namespace Stencil.Text

/-! ## Slices -/

/-- A slice is the part of a text that it is written as. -/
theorem slice_append (front middle rest : Text) :
    (front ++ middle ++ rest).slice ⟨front.length, front.length + middle.length⟩ = middle := by
  rw [slice, List.append_assoc, List.drop_left, Nat.add_sub_cancel_left, List.take_left]

/-- A range of a text splits the text into what stands before, inside and behind it. -/
theorem exists_eq_append_slice {text : Text} {start stop : Nat} (hle : start ≤ stop)
    (hstop : stop ≤ text.length) :
    ∃ front rest, text = front ++ text.slice ⟨start, stop⟩ ++ rest ∧ front.length = start ∧
      front.length + (text.slice ⟨start, stop⟩).length = stop := by
  refine ⟨text.take start, text.drop stop, ?_, ?_, ?_⟩
  · have hdrop : (text.drop start).drop (stop - start) = text.drop stop := by
      rw [List.drop_drop, Nat.add_sub_cancel' hle]
    rw [slice, List.append_assoc, ← hdrop, List.take_append_drop, List.take_append_drop]
  · rw [List.length_take]
    omega
  · simp only [slice, List.length_take, List.length_drop]
    omega

/-- A text in front moves the ranges of a text. -/
theorem slice_append_add (front text : Text) (start stop : Nat) :
    (front ++ text).slice ⟨front.length + start, front.length + stop⟩ =
      text.slice ⟨start, stop⟩ := by
  rw [slice, slice, List.drop_length_add_append, Nat.add_sub_add_left]

/-! ## Offsets of positions -/

theorem byteSize_pos {text : Text} (h : text ≠ []) : 0 < byteSize text := by
  cases text with
  | nil => exact absurd rfl h
  | cons c rest =>
    have := Char.utf8Size_pos c
    rw [byteSize_cons]
    omega

private theorem offsetOf_add_slice {text : Text} {position next : Nat} (hle : position ≤ next) :
    offsetOf text next = offsetOf text position + byteSize (text.slice ⟨position, next⟩) := by
  rw [offsetOf, offsetOf, slice, ← byteSize_append]
  congr 1
  conv_lhs => rw [← Nat.add_sub_cancel' hle, List.take_add]

theorem offsetOf_le_offsetOf (text : Text) {position next : Nat} (hle : position ≤ next) :
    offsetOf text position ≤ offsetOf text next := by
  rw [offsetOf_add_slice hle]
  exact Nat.le_add_right _ _

theorem offsetOf_lt_offsetOf {text : Text} {position next : Nat} (hlt : position < next)
    (hnext : next ≤ text.length) : offsetOf text position < offsetOf text next := by
  rw [offsetOf_add_slice (Nat.le_of_lt hlt)]
  apply Nat.lt_add_of_pos_right
  apply byteSize_pos
  rw [← List.length_pos_iff, slice, List.length_take, List.length_drop]
  simp only
  omega

theorem offsetOf_le_offsetOf_iff {text : Text} {position next : Nat}
    (hposition : position ≤ text.length) :
    offsetOf text position ≤ offsetOf text next ↔ position ≤ next := by
  refine ⟨fun h => ?_, offsetOf_le_offsetOf text⟩
  by_contra hlt
  have := offsetOf_lt_offsetOf (Nat.lt_of_not_le hlt) hposition
  omega

/-- A position is at the offset that what stands in front of it has for a size. -/
theorem offsetOf_append (front rest : Text) :
    offsetOf (front ++ rest) front.length = byteSize front := by
  rw [offsetOf, List.take_left]

theorem offsetOf_le_byteSize (text : Text) (position : Nat) :
    offsetOf text position ≤ byteSize text := by
  have h := List.take_append_drop position text
  conv_rhs => rw [← h, byteSize_append]
  exact Nat.le_add_right _ _

/-- The offsets behind the characters of a text that begins at an offset. -/
private def ends (offset : Nat) : Text → List Nat
  | [] => []
  | c :: rest => (offset + c.utf8Size) :: ends (offset + c.utf8Size) rest

private theorem foldl_push {entries : Array Nat} {offset : Nat} (text : Text)
    (hback : entries.back? = some offset) :
    text.foldl (fun entries c => entries.push (entries.back?.getD 0 + c.utf8Size)) entries =
      entries ++ (ends offset text).toArray := by
  induction text generalizing entries offset with
  | nil => simp [ends]
  | cons c rest ih =>
    have hnext : (entries.push (offset + c.utf8Size)).back? = some (offset + c.utf8Size) := by simp
    rw [List.foldl_cons, hback, Option.getD_some, ih hnext, ends]
    simp

private theorem getElem?_ends (offset : Nat) (text : Text) (position : Nat) :
    (offset :: ends offset text)[position]? =
      if position ≤ text.length then some (offset + offsetOf text position) else none := by
  induction text generalizing offset position with
  | nil => cases position <;> simp [ends, offsetOf]
  | cons c rest ih =>
    cases position with
    | zero => simp [offsetOf]
    | succ position =>
      rw [List.getElem?_cons_succ, ends, ih]
      simp only [List.length_cons, Nat.add_le_add_iff_right, offsetOf, List.take_succ_cons,
        byteSize_cons, Nat.add_assoc]

/-- The table of offsets answers with the offset of any position. -/
theorem ofPosition_ofText (text : Text) (position : Nat) :
    (Offsets.ofText text).ofPosition position = offsetOf text position := by
  have hentries : (Offsets.ofText text).entries = (0 :: ends 0 text).toArray := by
    rw [Offsets.ofText, foldl_push text (by rfl : #[0].back? = some 0)]
    simp
  have hlast : (0 :: ends 0 text).getLast? = some (byteSize text) := by
    have hlen : (ends 0 text).length = text.length := by
      have hin := getElem?_ends 0 text text.length
      have hout := getElem?_ends 0 text (text.length + 1)
      rw [if_pos (Nat.le_refl _)] at hin
      rw [if_neg (by omega)] at hout
      have := (List.getElem?_eq_some_iff.mp hin).1
      have := List.getElem?_eq_none_iff.mp hout
      simp only [List.length_cons] at *
      omega
    rw [List.getLast?_eq_getElem?, List.length_cons, Nat.add_sub_cancel, hlen, getElem?_ends,
      if_pos (Nat.le_refl _), Nat.zero_add, offsetOf, List.take_length]
  rw [Offsets.ofPosition, hentries, Array.getD_eq_getD_getElem?, List.getElem?_toArray,
    List.back?_toArray, hlast, getElem?_ends, Nat.zero_add, Option.getD_some]
  split
  · rfl
  · rw [Option.getD_none, offsetOf, List.take_of_length_le (by omega)]

/-- The byte offset of a position is a boundary between characters. -/
theorem isValid_offsetOf (text : Text) (position : Nat) :
    (String.Pos.Raw.mk (offsetOf text position)).IsValid (String.ofList text) := by
  have hsize : ∀ text : Text, (String.ofList text).utf8ByteSize = byteSize text := by
    intro text
    induction text with
    | nil => rfl
    | cons c rest ih => rw [String.ofList_cons, String.utf8ByteSize_append, ih]; simp
  rw [String.Pos.Raw.isValid_ofList]
  exact ⟨position, (hsize _).symm⟩

/-! ## Positions of offsets -/

theorem positionWithin_le_positionAfter (offset : Nat) (text : Text) :
    positionWithin offset text ≤ positionAfter offset text := by
  induction text generalizing offset with
  | nil => exact Nat.le_refl _
  | cons c rest ih =>
    have := Char.utf8Size_pos c
    rw [positionWithin, positionAfter]
    split
    · exact Nat.zero_le _
    · rw [if_neg (by omega)]
      exact Nat.succ_le_succ (ih _)

theorem positionAfter_le_length (offset : Nat) (text : Text) :
    positionAfter offset text ≤ text.length := by
  induction text generalizing offset with
  | nil => exact Nat.le_refl _
  | cons c rest ih =>
    rw [positionAfter, List.length_cons]
    split
    · exact Nat.zero_le _
    · exact Nat.succ_le_succ (ih _)

/-- An offset that is the boundary at a position has that position on either side. -/
theorem positionAfter_offsetOf {text : Text} {position : Nat} (h : position ≤ text.length) :
    positionAfter (offsetOf text position) text = position := by
  induction text generalizing position with
  | nil => exact (Nat.le_zero.mp h).symm
  | cons c rest ih =>
    cases position with
    | zero => rfl
    | succ position =>
      have := Char.utf8Size_pos c
      rw [offsetOf, List.take_succ_cons, byteSize_cons, positionAfter, if_neg (by omega),
        Nat.add_sub_cancel_left]
      exact congrArg (· + 1) (ih (Nat.le_of_succ_le_succ h))

theorem positionWithin_offsetOf {text : Text} {position : Nat} (h : position ≤ text.length) :
    positionWithin (offsetOf text position) text = position := by
  induction text generalizing position with
  | nil => exact (Nat.le_zero.mp h).symm
  | cons c rest ih =>
    cases position with
    | zero =>
      have := Char.utf8Size_pos c
      exact if_pos this
    | succ position =>
      rw [offsetOf, List.take_succ_cons, byteSize_cons, positionWithin, if_neg (by omega),
        Nat.add_sub_cancel_left]
      exact congrArg (· + 1) (ih (Nat.le_of_succ_le_succ h))

/-- An offset is no earlier than the position that it falls into. -/
theorem offsetOf_positionWithin_le (offset : Nat) (text : Text) :
    offsetOf text (positionWithin offset text) ≤ offset := by
  induction text generalizing offset with
  | nil => exact Nat.zero_le _
  | cons c rest ih =>
    rw [positionWithin]
    split
    · exact Nat.zero_le _
    · have := ih (offset - c.utf8Size)
      rw [offsetOf] at this ⊢
      rw [List.take_succ_cons, byteSize_cons]
      omega

/-- An offset is at most that of the position behind it. -/
theorem le_offsetOf_positionAfter {offset : Nat} {text : Text} (h : offset ≤ byteSize text) :
    offset ≤ offsetOf text (positionAfter offset text) := by
  induction text generalizing offset with
  | nil =>
    rw [byteSize_nil] at h
    omega
  | cons c rest ih =>
    rw [positionAfter]
    split
    · omega
    · rw [byteSize_cons] at h
      have := @ih (offset - c.utf8Size) (by omega)
      rw [offsetOf, List.take_succ_cons, byteSize_cons]
      rw [offsetOf] at this
      omega

/-- An offset is a boundary, or it falls into a character of several bytes. -/
theorem positionWithin_eq_or (offset : Nat) (text : Text) :
    positionWithin offset text = positionAfter offset text ∨
      ∃ front c rest, text = front ++ c :: rest ∧ positionWithin offset text = front.length ∧
        positionAfter offset text = front.length + 1 ∧ 1 < c.utf8Size := by
  induction text generalizing offset with
  | nil => exact Or.inl rfl
  | cons c rest ih =>
    have := Char.utf8Size_pos c
    rw [positionWithin, positionAfter]
    by_cases hzero : offset = 0
    · rw [if_pos hzero, if_pos (by omega)]
      exact Or.inl rfl
    · rw [if_neg hzero]
      by_cases hin : offset < c.utf8Size
      · rw [if_pos hin]
        refine Or.inr ⟨[], c, rest, rfl, rfl, ?_, by omega⟩
        rw [Nat.sub_eq_zero_of_le (Nat.le_of_lt hin)]
        cases rest <;> rfl
      · rw [if_neg hin]
        rcases ih (offset - c.utf8Size) with h | ⟨front, d, rest, rfl, hwithin, hafter, hd⟩
        · rw [h]
          exact Or.inl rfl
        · exact Or.inr ⟨c :: front, d, rest, rfl, congrArg (· + 1) hwithin,
            congrArg (· + 1) hafter, hd⟩

end Stencil.Text
