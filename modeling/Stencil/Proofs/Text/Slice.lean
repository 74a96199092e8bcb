import Stencil.Proofs.Text.Bytes
import Stencil.Proofs.Text.Offset

/-!
# Cutting bytes

A reader of bytes cuts ranges out of them and moves cursors over them. A range has to lie inside the
bytes, and where text is cut out neither end may fall into a character; any other cut fails, and so
does a look at a byte that is not there. `none` stands for the failure. The ranges that can be cut
out of a text are those of its parts, and a cursor that stays inside moves to the end of a run.
-/

namespace Stencil.Bytes

open Text

/-- The bytes in a range that lies inside. -/
def slice? (bytes : List UInt8) (span : Span) : Option (List UInt8) :=
  if span.start ≤ span.stop ∧ span.stop ≤ bytes.length then
    some ((bytes.drop span.start).take (span.stop - span.start))
  else none

instance (byte : UInt8) : Decidable (ContinuesChar byte) := inferInstanceAs (Decidable (_ ∧ _))

/-- The byte at an offset, if there is one, begins a character. -/
def IsBoundary (bytes : List UInt8) (offset : Nat) : Prop :=
  ∀ byte ∈ bytes[offset]?, ¬ ContinuesChar byte

instance (bytes : List UInt8) (offset : Nat) : Decidable (IsBoundary bytes offset) :=
  inferInstanceAs (Decidable (∀ byte ∈ bytes[offset]?, ¬ ContinuesChar byte))

/-- The text in a range that lies inside and cuts no character. -/
def cut? (bytes : List UInt8) (span : Span) : Option Text :=
  if IsBoundary bytes span.start ∧ IsBoundary bytes span.stop then
    (slice? bytes span).bind ofUtf8?
  else none

/-- The part between what stands in front of it and what stands behind it is cut out. -/
theorem slice?_append (front middle rest : List UInt8) :
    slice? (front ++ middle ++ rest) ⟨front.length, front.length + middle.length⟩ =
      some middle := by
  have hstop : front.length + middle.length ≤ (front ++ middle ++ rest).length := by
    rw [List.length_append, List.length_append]
    exact Nat.le_add_right _ _
  rw [slice?, if_pos ⟨Nat.le_add_right _ _, hstop⟩, List.append_assoc, List.drop_left,
    Nat.add_sub_cancel_left, List.take_left]

/-- What stands behind an offset is cut out. -/
theorem slice?_rest {bytes front rest : List UInt8} {start : Nat} (hbytes : bytes = front ++ rest)
    (hstart : front.length = start) : slice? bytes ⟨start, bytes.length⟩ = some rest := by
  have hslice := slice?_append front rest []
  rwa [List.append_nil, ← List.length_append, ← hbytes, hstart] at hslice

/-! ## Text -/

/-- The end of a part of a text is between characters. -/
theorem isBoundary_append (front rest : Text) :
    IsBoundary (utf8 (front ++ rest)) (byteSize front) := by
  intro byte hbyte
  rw [utf8_append, ← length_utf8, List.getElem?_append_right (Nat.le_refl _), Nat.sub_self] at hbyte
  cases rest with
  | nil => simp at hbyte
  | cons c rest =>
    obtain ⟨first, behind, hencodes⟩ := exists_encodes c
    rw [utf8_cons, hencodes.bytes_eq] at hbyte
    obtain rfl : first = byte := by simpa using hbyte
    exact hencodes.begins

/-- Bytes of a text are between characters only at the end of a part of it. -/
theorem exists_of_isBoundary {text : Text} {offset : Nat} (h : IsBoundary (utf8 text) offset)
    (hoffset : offset ≤ byteSize text) :
    ∃ front rest, text = front ++ rest ∧ offset = byteSize front := by
  obtain ⟨behind, hbehind, hdrop, hlength⟩ := exists_drop_utf8 offset text
  refine ⟨_, _, (List.take_append_drop (positionAfter offset text) text).symm, ?_⟩
  rw [← hlength, Nat.min_eq_left hoffset]
  cases behind with
  | nil => rfl
  | cons byte behind =>
    have hbyte : (utf8 text)[offset]? = some byte := by rw [← List.head?_drop, hdrop]; rfl
    exact absurd (hbehind byte List.mem_cons_self) (h byte hbyte)

theorem slice?_utf8 (front part rest : Text) :
    slice? (utf8 (front ++ part ++ rest)) ⟨byteSize front, byteSize (front ++ part)⟩ =
      some (utf8 part) := by
  rw [utf8_append, utf8_append, byteSize_append, ← length_utf8, ← length_utf8, slice?_append]

/-- Of the bytes of a text its parts are cut out, each at the offsets at which it stands. -/
theorem cut?_eq_some_iff {text part : Text} {span : Span} :
    cut? (utf8 text) span = some part ↔
      ∃ front rest, text = front ++ part ++ rest ∧
        span = ⟨byteSize front, byteSize (front ++ part)⟩ := by
  rw [cut?, Option.ite_none_right_eq_some]
  constructor
  · rintro ⟨⟨hstart, hstop⟩, hcut⟩
    obtain ⟨bytes, hslice, hbytes⟩ := Option.bind_eq_some_iff.mp hcut
    obtain ⟨hle, hsize⟩ := (Option.ite_none_right_eq_some.mp hslice).1
    rw [length_utf8] at hsize
    obtain ⟨front, behind, htext, hfront⟩ := exists_of_isBoundary hstart (Nat.le_trans hle hsize)
    obtain ⟨before, rest, htext', hbefore⟩ := exists_of_isBoundary hstop hsize
    have hlength : front.length ≤ before.length := by
      by_contra hlt
      have hoffset := offsetOf_lt_offsetOf (Nat.lt_of_not_le hlt)
        (List.prefix_append front behind).length_le
      rw [offsetOf_append, ← htext, htext', offsetOf_append] at hoffset
      omega
    obtain ⟨middle, rfl, rfl⟩ := exists_between (htext.symm.trans htext') hlength
    obtain rfl : span = ⟨byteSize front, byteSize (front ++ middle)⟩ := by rw [← hfront, ← hbefore]
    rw [htext', slice?_utf8] at hslice
    obtain rfl := Option.some.inj hslice
    obtain rfl : middle = part := Option.some.inj ((ofUtf8?_eq_some_iff.mpr rfl).symm.trans hbytes)
    exact ⟨front, rest, htext', rfl⟩
  · rintro ⟨front, rest, rfl, rfl⟩
    refine ⟨⟨?_, isBoundary_append (front ++ part) rest⟩, ?_⟩
    · rw [List.append_assoc]
      exact isBoundary_append front (part ++ rest)
    · rw [slice?_utf8, Option.bind_some, ofUtf8?_eq_some_iff]

section

variable {text : Text} {span : Span} (hle : span.start ≤ span.stop)
  (hstop : span.stop ≤ text.length)

include hle hstop

/-- A range of positions is one of bytes at its offsets. -/
theorem exists_span_eq : ∃ front rest, text = front ++ text.slice span ++ rest ∧
    (⟨offsetOf text span.start, offsetOf text span.stop⟩ : Span) =
      ⟨byteSize front, byteSize (front ++ text.slice span)⟩ := by
  obtain ⟨front, rest, htext, hfront, hpart⟩ := exists_eq_append_slice hle hstop
  refine ⟨front, rest, htext, ?_⟩
  generalize text.slice ⟨span.start, span.stop⟩ = part at htext hpart
  subst htext
  rw [← hpart, ← List.length_append, ← hfront, offsetOf_append, List.append_assoc, offsetOf_append]

theorem slice?_offsetOf :
    slice? (utf8 text) ⟨offsetOf text span.start, offsetOf text span.stop⟩ =
      some (utf8 (text.slice span)) := by
  obtain ⟨front, rest, htext, hspan⟩ := exists_span_eq hle hstop
  rw [hspan]
  generalize text.slice span = part at htext ⊢
  rw [htext, slice?_utf8]

theorem cut?_offsetOf :
    cut? (utf8 text) ⟨offsetOf text span.start, offsetOf text span.stop⟩ =
      some (text.slice span) :=
  cut?_eq_some_iff.mpr (exists_span_eq hle hstop)

end

/-- What stands behind a position is cut out. -/
theorem cut?_rest (text : Text) (position : Nat) :
    cut? (utf8 text) ⟨offsetOf text position, (utf8 text).length⟩ = some (text.drop position) := by
  refine cut?_eq_some_iff.mpr ⟨text.take position, [], ?_, ?_⟩
  · rw [List.take_append_drop, List.append_nil]
  · rw [List.take_append_drop, length_utf8, offsetOf]

example : cut? (utf8 ['é', 'x']) ⟨2, 3⟩ = some ['x'] ∧ cut? (utf8 ['é', 'x']) ⟨1, 3⟩ = none := by
  decide +kernel

/-! ## Cursors -/

/-- Move a cursor over bytes of a kind, up to `stop`. -/
def skip? (p : UInt8 → Bool) (bytes : List UInt8) (cursor stop : Nat) : Option Nat :=
  if cursor < stop then
    match bytes[cursor]? with
    | none => none
    | some byte => if p byte then skip? p bytes (cursor + 1) stop else some cursor
  else some cursor
  termination_by stop - cursor

/-- Move a cursor back over bytes of a kind, down to `start`. -/
def skipBack? (p : UInt8 → Bool) (bytes : List UInt8) (start cursor : Nat) : Option Nat :=
  if start < cursor then
    match bytes[cursor - 1]? with
    | none => none
    | some byte => if p byte then skipBack? p bytes start (cursor - 1) else some cursor
  else some cursor
  termination_by cursor

variable {p : UInt8 → Bool} {front run rest : List UInt8}

/-- A cursor in front of a run moves to its end, where the way ends or another byte stands. -/
theorem skip?_append {stop : Nat} (hrun : ∀ byte ∈ run, p byte = true)
    (hle : front.length + run.length ≤ stop) (hstop : stop ≤ (front ++ run ++ rest).length)
    (hrest : front.length + run.length < stop → ∀ byte ∈ rest.head?, p byte = false) :
    skip? p (front ++ run ++ rest) front.length stop = some (front.length + run.length) := by
  induction run generalizing front with
  | nil =>
    rw [List.append_nil] at hstop ⊢
    rw [skip?]
    split
    · next hlt =>
      cases rest with
      | nil =>
        rw [List.append_nil] at hstop
        omega
      | cons byte rest =>
        simp [hrest hlt byte rfl]
    · rfl
  | cons byte run ih =>
    obtain ⟨hbyte, hrun⟩ := List.forall_mem_cons.mp hrun
    have hat : (front ++ byte :: run ++ rest)[front.length]? = some byte := by simp
    have hlength : (front ++ [byte]).length = front.length + 1 := List.length_append
    have hsplit : front ++ byte :: run ++ rest = front ++ [byte] ++ run ++ rest := by simp
    rw [List.length_cons] at hle hrest ⊢
    have hnext := @ih (front ++ [byte]) hrun (by omega) (hsplit ▸ hstop)
      fun hlt => hrest (by omega)
    rw [skip?, if_pos (by omega), hat]
    simp only [hbyte, if_true]
    rw [hsplit, ← hlength, hnext, hlength]
    congr 1
    omega

/-- A cursor behind a run moves back to its start, where the way ends or another byte stands. -/
theorem skipBack?_append {start : Nat} (hrun : ∀ byte ∈ run, p byte = true)
    (hle : start ≤ front.length)
    (hfront : start < front.length → ∀ byte ∈ front.getLast?, p byte = false) :
    skipBack? p (front ++ run ++ rest) start (front.length + run.length) = some front.length := by
  induction run using List.reverseRecOn generalizing rest with
  | nil =>
    rw [List.append_nil, List.length_nil, Nat.add_zero, skipBack?]
    split
    · next hlt =>
      obtain ⟨before, byte, rfl⟩ : ∃ before byte, front = before ++ [byte] := by
        rcases List.eq_nil_or_concat' front with rfl | h
        · simp at hlt
        · exact h
      simp [hfront hlt byte (by simp)]
    · rfl
  | append_singleton run byte ih =>
    have hbyte := hrun byte (by simp)
    have hlength : front.length + (run ++ [byte]).length - 1 = front.length + run.length := by
      rw [List.length_append, List.length_singleton]
      omega
    have hsplit : front ++ (run ++ [byte]) ++ rest = front ++ run ++ byte :: rest := by simp
    have hat : (front ++ run ++ byte :: rest)[front.length + run.length]? = some byte := by
      rw [← List.length_append, List.getElem?_append_right (Nat.le_refl _), Nat.sub_self]
      rfl
    have hprev := @ih (byte :: rest) fun byte hmem => hrun byte (List.mem_append_left _ hmem)
    have hlt : start < front.length + (run ++ [byte]).length := by
      rw [List.length_append, List.length_singleton]
      omega
    rw [skipBack?, if_pos hlt, hlength, hsplit, hat]
    simpa only [hbyte, if_true] using hprev

section

variable {q : UInt8 → Bool} {bytes lead content trail : List UInt8}
  (hbytes : bytes = front ++ (lead ++ content ++ trail) ++ rest)
  (htrims : Trims p q lead content trail)

include hbytes htrims

/-- A cursor in front of a trimmed content moves up to it. The way may end at the content or behind
it, but not behind what is trimmed off where no content is left. -/
theorem skip?_content {stop : Nat} (hle : front.length + lead.length ≤ stop)
    (hstop : stop ≤ front.length + (lead ++ content ++ trail).length)
    (hempty : content = [] → stop ≤ front.length + lead.length) :
    skip? p bytes front.length stop = some (front.length + lead.length) := by
  have hsplit : bytes = front ++ lead ++ (content ++ trail ++ rest) := by
    simp only [hbytes, List.append_assoc]
  rw [hsplit]
  refine skip?_append htrims.lead hle ?_ fun hlt => ?_
  · simp only [List.length_append] at hstop ⊢
    omega
  · have hne : content ≠ [] := fun hnil => absurd (hempty hnil) (by omega)
    rw [List.append_assoc, List.head?_append_of_ne_nil _ hne]
    exact htrims.head

/-- A cursor behind a trimmed content moves back to its end. -/
theorem skipBack?_content {start : Nat} (hle : start ≤ front.length + lead.length + content.length)
    (hempty : content = [] → front.length + lead.length ≤ start) :
    skipBack? q bytes start (front.length + (lead ++ content ++ trail).length) =
      some (front.length + lead.length + content.length) := by
  have hsplit : bytes = front ++ lead ++ content ++ trail ++ rest := by
    simp only [hbytes, List.append_assoc]
  have hlength : (front ++ lead ++ content).length =
      front.length + lead.length + content.length := by
    rw [List.length_append, List.length_append]
  have hend : front.length + (lead ++ content ++ trail).length =
      (front ++ lead ++ content).length + trail.length := by
    simp only [List.length_append]
    omega
  rw [hsplit, hend, ← hlength]
  refine skipBack?_append htrims.trail (by rwa [hlength]) fun hlt => ?_
  have hne : content ≠ [] := by
    rintro rfl
    have := hempty rfl
    simp only [hlength, List.length_nil] at hlt
    omega
  rw [List.getLast?_append_of_ne_nil _ hne]
  exact htrims.last

end

end Stencil.Bytes
