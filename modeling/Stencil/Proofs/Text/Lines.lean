import Stencil.Proofs.Text.Cut
import Stencil.Text.LineTable

/-!
# Lines

A text is cut into lines at its line feeds, and a table of line starts answers by bisection. Both
are read off a split of the text into whole lines and a part of the line that follows: cutting
works on either side of a feed, and the table's answer is the end of the whole lines.
-/

namespace Stencil

/-- A line break. -/
def IsFeed (feed : Text) : Prop := feed = ['\n'] ∨ feed = ['\r', '\n']

instance (feed : Text) : Decidable (IsFeed feed) := inferInstanceAs (Decidable (_ ∨ _))

namespace Text

variable {α : Type}

/-- Nothing, or items of which the last is `mark`. -/
def EndsIn (mark : α) (items : List α) : Prop := items = [] ∨ items.getLast? = some mark

instance [DecidableEq α] (mark : α) (items : List α) : Decidable (EndsIn mark items) :=
  inferInstanceAs (Decidable (_ ∨ _))

@[simp] theorem endsIn_nil (mark : α) : EndsIn mark [] := Or.inl rfl

@[simp] theorem endsIn_append_singleton (mark : α) (items : List α) :
    EndsIn mark (items ++ [mark]) := Or.inr (by simp)

theorem EndsIn.append {mark : α} {left right : List α} (hl : EndsIn mark left)
    (hr : EndsIn mark right) : EndsIn mark (left ++ right) := by
  rcases hr with rfl | hr
  · simpa using hl
  · exact Or.inr (by simp [List.getLast?_append, hr])

theorem EndsIn.eq_nil_or_concat {mark : α} {items : List α} (h : EndsIn mark items) :
    items = [] ∨ ∃ front, items = front ++ [mark] := by
  rcases h with h | h
  · exact Or.inl h
  · exact Or.inr (List.getLast?_eq_some_iff.mp h)

/-- Every list is a part that ends in a mark and a part without marks. -/
theorem exists_endsIn_append [DecidableEq α] (mark : α) (items : List α) :
    ∃ whole part, items = whole ++ part ∧ EndsIn mark whole ∧ mark ∉ part := by
  induction items with
  | nil => exact ⟨[], [], rfl, endsIn_nil mark, by simp⟩
  | cons item rest ih =>
    obtain ⟨whole, part, rfl, hwhole, hpart⟩ := ih
    rcases hwhole.eq_nil_or_concat with rfl | ⟨front, rfl⟩
    · by_cases hitem : item = mark
      · exact ⟨[item], part, rfl, Or.inr (by simp [hitem]), hpart⟩
      · refine ⟨[], item :: part, rfl, endsIn_nil mark, ?_⟩
        simp only [List.mem_cons, not_or]
        exact ⟨Ne.symm hitem, hpart⟩
    · exact ⟨item :: (front ++ [mark]), part, rfl, endsIn_append_singleton mark (item :: front),
        hpart⟩

/-- A list is a part without marks, or such a part, a mark and a further list. -/
theorem marked_induction [DecidableEq α] (mark : α) {motive : List α → Prop}
    (last : ∀ part, mark ∉ part → motive part)
    (step : ∀ part rest, mark ∉ part → motive rest → motive (part ++ mark :: rest))
    (items : List α) : motive items := by
  obtain ⟨n, hn⟩ : ∃ n, items.length = n := ⟨_, rfl⟩
  induction n using Nat.strongRecOn generalizing items with
  | _ n ih =>
    by_cases hmark : mark ∈ items
    · obtain ⟨part, rest, rfl, hpart⟩ := List.eq_append_cons_of_mem hmark
      refine step part rest hpart (ih rest.length ?_ rest rfl)
      simp only [List.length_append, List.length_cons] at hn
      omega
    · exact last items hmark

/-- A text is one line, or a line, a line feed and a further text. -/
theorem line_induction {motive : Text → Prop} (last : ∀ line, '\n' ∉ line → motive line)
    (step : ∀ line rest, '\n' ∉ line → motive rest → motive (line ++ '\n' :: rest))
    (text : Text) : motive text :=
  marked_induction '\n' last step text

/-- The length of some pieces, each with one mark. -/
def extent : List Text → Nat
  | [] => 0
  | piece :: rest => piece.length + 1 + extent rest

/-- The pieces of a text and one mark for each of them make up the text and one mark more. -/
theorem extent_cut (mark : Char) (text : Text) : extent (cut mark text) = text.length + 1 := by
  induction text with
  | nil => rfl
  | cons c rest ih =>
    rw [cut_cons]
    split
    · rw [extent, ih, List.length_nil, List.length_cons]
      omega
    · cases h : cut mark rest with
      | nil => exact absurd h (cut_ne_nil mark rest)
      | cons first others =>
        rw [h, extent] at ih
        rw [glue, extent, List.length_cons, List.length_cons]
        omega

end Text

namespace LineTable

open Text

/-- The first `found` entries are at most `offset`, and no other entry is. -/
def SplitsAt (starts : Array Nat) (offset found : Nat) : Prop :=
  found ≤ starts.size ∧ (∀ i, i < found → starts.getD i 0 ≤ offset) ∧
    ∀ i, found ≤ i → i < starts.size → offset < starts.getD i 0

/-- The bisection finds the split of the entries wherever it starts from. -/
theorem countUpTo_eq {starts : Array Nat} {offset found low high : Nat}
    (h : SplitsAt starts offset found) (hlow : low ≤ found) (hhigh : found ≤ high)
    (hsize : high ≤ starts.size) : countUpTo starts offset low high = found := by
  fun_induction countUpTo starts offset low high with
  | case1 low high hlt middle hle ih =>
    refine ih ?_ hhigh hsize
    by_cases hm : middle < found
    · exact hm
    · have := h.2.2 middle (Nat.le_of_not_lt hm) (by omega)
      omega
  | case2 low high hlt middle hgt ih =>
    refine ih hlow ?_ (by omega)
    by_cases hm : found ≤ middle
    · exact hm
    · exact absurd (h.2.1 middle (Nat.lt_of_not_le hm)) hgt
  | case3 low high hge => omega

variable {α : Type} [BEq α]

theorem startsAfter_append (feed : α) (position : Nat) (left right : List α) :
    startsAfter feed position (left ++ right) =
      startsAfter feed position left ++ startsAfter feed (position + left.length) right := by
  induction left generalizing position with
  | nil => simp [startsAfter]
  | cons unit rest ih =>
    have hlen : position + (unit :: rest).length = position + 1 + rest.length := by
      rw [List.length_cons]
      omega
    rw [List.cons_append, startsAfter, startsAfter, ih, hlen]
    split <;> rfl

theorem length_startsAfter (feed : α) (position : Nat) (units : List α) :
    (startsAfter feed position units).length = units.count feed := by
  induction units generalizing position with
  | nil => rfl
  | cons unit rest ih =>
    rw [startsAfter, List.count_cons]
    split <;> simp [ih]

theorem startsAfter_bound {feed : α} {position start : Nat} {units : List α}
    (h : start ∈ startsAfter feed position units) :
    position < start ∧ start ≤ position + units.length := by
  induction units generalizing position with
  | nil => simp [startsAfter] at h
  | cons unit rest ih =>
    rw [startsAfter] at h
    rw [List.length_cons]
    split at h
    · rcases List.mem_cons.mp h with rfl | h
      · omega
      · have := ih h
        omega
    · have := ih h
      omega

variable [LawfulBEq α]

theorem startsAfter_of_not_mem {feed : α} {units : List α} (position : Nat) (h : feed ∉ units) :
    startsAfter feed position units = [] := by
  induction units generalizing position with
  | nil => rfl
  | cons unit rest ih =>
    simp only [List.mem_cons, not_or] at h
    rw [startsAfter, if_neg (by simpa using Ne.symm h.1), ih _ h.2]

/-- The last entry of a table stands behind the last whole line. -/
theorem getLast?_starts {feed : α} {units : List α} (h : EndsIn feed units) :
    (0 :: startsAfter feed 0 units).getLast? = some units.length := by
  rcases h.eq_nil_or_concat with rfl | ⟨front, rfl⟩
  · rfl
  · have hfeed : startsAfter feed front.length [feed] = [front.length + 1] := by
      simp [startsAfter]
    rw [startsAfter_append, Nat.zero_add, hfeed, ← List.cons_append, List.getLast?_concat,
      List.length_append]
    rfl

/-- A list of entries splits where those beyond an offset begin. -/
theorem splitsAt_append {left right : List Nat} {offset : Nat}
    (hleft : ∀ start ∈ left, start ≤ offset)
    (hright : ∀ start ∈ right, offset < start) :
    SplitsAt (left ++ right).toArray offset left.length := by
  refine ⟨by simp, ?_, ?_⟩
  · intro i hi
    rw [Array.getD_eq_getD_getElem?, List.getElem?_toArray, List.getElem?_append_left hi,
      List.getElem?_eq_getElem hi]
    exact hleft _ (List.getElem_mem hi)
  · intro i hi hsize
    have hin : i - left.length < right.length := by
      simp only [List.size_toArray, List.length_append] at hsize
      omega
    rw [Array.getD_eq_getD_getElem?, List.getElem?_toArray, List.getElem?_append_right hi,
      List.getElem?_eq_getElem hin]
    exact hright _ (List.getElem_mem hin)

theorem starts_append {feed : α} {part : List α} (whole rest : List α) (hpart : feed ∉ part) :
    (ofUnits feed (whole ++ part ++ rest)).starts = (0 :: startsAfter feed 0 whole ++
      startsAfter feed (whole.length + part.length) rest).toArray := by
  simp [ofUnits, startsAfter_append, startsAfter_of_not_mem _ hpart]

/-- The line in which some whole lines and a feedless part end has the index of its feeds. -/
theorem index_append {feed : α} {part rest : List α} {offset : Nat} (whole : List α)
    (hpart : feed ∉ part) (hoffset : whole.length + part.length ≤ offset)
    (hrest : rest ≠ [] → offset = whole.length + part.length) :
    (ofUnits feed (whole ++ part ++ rest)).index offset = whole.count feed := by
  have hsplits : SplitsAt (ofUnits feed (whole ++ part ++ rest)).starts offset
      (0 :: startsAfter feed 0 whole).length := by
    rw [starts_append whole rest hpart]
    apply splitsAt_append
    · intro start hstart
      rcases List.mem_cons.mp hstart with rfl | hstart
      · exact Nat.zero_le _
      · have := startsAfter_bound hstart
        omega
    · intro start hstart
      have hne : rest ≠ [] := by
        rintro rfl
        simp [startsAfter] at hstart
      have := startsAfter_bound hstart
      have := hrest hne
      omega
  rw [index, countUpTo_eq hsplits (Nat.zero_le _) hsplits.1 (Nat.le_refl _), List.length_cons,
    length_startsAfter]
  rfl

/-- The table has an entry for the end of some whole lines, at the index of their feeds. -/
theorem getElem?_starts_append {feed : α} {whole part : List α} (rest : List α)
    (hwhole : EndsIn feed whole) (hpart : feed ∉ part) :
    (ofUnits feed (whole ++ part ++ rest)).starts[whole.count feed]? = some whole.length := by
  have hlast := getLast?_starts hwhole
  rw [List.getLast?_eq_getElem?, List.length_cons, Nat.add_sub_cancel, length_startsAfter] at hlast
  have hcount : whole.count feed < (0 :: startsAfter feed 0 whole).length := by
    rw [List.length_cons, length_startsAfter]
    exact Nat.lt_succ_self _
  rw [starts_append whole rest hpart, List.getElem?_toArray, List.getElem?_append_left hcount, hlast]

/-- A line begins where the whole lines before it end. -/
theorem lineStart_append {feed : α} {whole part : List α} (rest : List α)
    (hwhole : EndsIn feed whole) (hpart : feed ∉ part) :
    (ofUnits feed (whole ++ part ++ rest)).lineStart (whole.length + part.length) =
      whole.length := by
  rw [lineStart, index_append whole hpart (Nat.le_refl _) fun _ => rfl,
    Array.getD_eq_getD_getElem?, getElem?_starts_append rest hwhole hpart]
  rfl

/-- What stands before an offset is some whole lines and a part of the line that holds the offset,
whose index and start are told by the whole lines, also past the end. -/
theorem exists_whole_part [DecidableEq α] (feed : α) (units : List α) (offset : Nat) :
    ∃ whole part, units.take offset = whole ++ part ∧ EndsIn feed whole ∧ feed ∉ part ∧
      (ofUnits feed units).index offset = whole.count feed ∧
      (ofUnits feed units).starts[whole.count feed]? = some whole.length := by
  obtain ⟨whole, part, hsplit, hwhole, hpart⟩ := exists_endsIn_append feed (units.take offset)
  have hunits : whole ++ part ++ units.drop offset = units := by
    rw [← hsplit, List.take_append_drop]
  have hlen := congrArg List.length hsplit
  rw [List.length_take, List.length_append] at hlen
  refine ⟨whole, part, hsplit, hwhole, hpart, ?_, ?_⟩
  · rw [← hunits]
    refine index_append whole hpart (by omega) fun hrest => ?_
    have : offset < units.length := by simpa using hrest
    omega
  · rw [← hunits]
    exact getElem?_starts_append _ hwhole hpart

/-- The line of an offset is one more than the feeds before it, also past the end. -/
theorem line_ofUnits [DecidableEq α] (feed : α) (units : List α) (offset : Nat) :
    (ofUnits feed units).line offset = (units.take offset).count feed + 1 := by
  obtain ⟨whole, part, hsplit, -, hpart, hindex, -⟩ := exists_whole_part feed units offset
  rw [line, hindex, hsplit, List.count_append, List.count_eq_zero_of_not_mem hpart, Nat.add_zero]

/-- Behind a part of a text, the line is one more than the line feeds in that part. -/
theorem line_ofText_append (front behind : Text) :
    (ofText (front ++ behind)).line front.length = front.count '\n' + 1 := by
  have hline := line_ofUnits '\n' (front ++ behind) front.length
  rwa [List.take_left] at hline

/-! ## A text in front -/

/-- A text in front moves the lines of a text down by its feeds. -/
theorem line_append_add [DecidableEq α] (feed : α) (front units : List α) (offset : Nat) :
    (ofUnits feed (front ++ units)).line (front.length + offset) =
      front.count feed + (ofUnits feed units).line offset := by
  rw [line_ofUnits, line_ofUnits, List.take_length_add_append, List.count_append, Nat.add_assoc]

/-- Whole lines in front move the starts of the lines behind them. -/
theorem lineStart_append_add [DecidableEq α] {feed : α} {front units : List α} {offset : Nat}
    (hfront : EndsIn feed front) (hoffset : offset ≤ units.length) :
    (ofUnits feed (front ++ units)).lineStart (front.length + offset) =
      front.length + (ofUnits feed units).lineStart offset := by
  obtain ⟨whole, part, hsplit, hwhole, hpart⟩ := exists_endsIn_append feed (units.take offset)
  have hlen := congrArg List.length hsplit
  rw [List.length_take_of_le hoffset, List.length_append] at hlen
  have hunits : units = whole ++ part ++ units.drop offset := by
    rw [← hsplit, List.take_append_drop]
  have hboth : front ++ units = front ++ whole ++ part ++ units.drop offset := by
    rw [List.append_assoc, List.append_assoc, ← List.append_assoc whole, ← hunits]
  have hstart : (ofUnits feed units).lineStart offset = whole.length := by
    rw [hunits, hlen]
    exact lineStart_append _ hwhole hpart
  have hmoved := lineStart_append (units.drop offset) (hfront.append hwhole) hpart
  rw [List.length_append, Nat.add_assoc, ← hlen] at hmoved
  rw [hstart, hboth, hmoved]

end LineTable

end Stencil
