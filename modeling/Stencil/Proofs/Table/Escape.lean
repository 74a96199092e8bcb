import Stencil.Proofs.Table.Reading

/-!
# Escaped quotation marks

A quotation mark behind a backslash neither begins nor ends a quoted part. Whatever stands in front
of a row is dropped before its marks are looked at, though, and a quotation mark begins a row while
a backslash does not. So the mark loses its escape where it is the first character of its line that
can begin a row, and from there on whatever is quoted is taken for unquoted and the other way round.
-/

namespace Stencil.Table

open Text

/-- The row of the line begins with a quotation mark whose backslash is not part of the row. -/
def LosesEscape (line : Text) : Prop :=
  ∃ leader row, IsRowOf line leader row ∧ leader.getLast? = some '\\' ∧ row.head? = some '"'

variable {line leader row : Text}

/-! ## Marks of a row -/

theorem IsRowOf.unique (h : IsRowOf line leader row) {front rest : Text}
    (hother : IsRowOf line front rest) : leader = front ∧ row = rest := by
  have hrow := (rowOf?_eq_some_iff.mpr ⟨leader, h⟩).symm.trans
    (rowOf?_eq_some_iff.mpr ⟨front, hother⟩)
  obtain rfl := Option.some.inj hrow
  exact ⟨List.append_cancel_right (h.line_eq.symm.trans hother.line_eq), rfl⟩

theorem IsRowOf.losesEscape_iff (h : IsRowOf line leader row) :
    LosesEscape line ↔ leader.getLast? = some '\\' ∧ row.head? = some '"' := by
  constructor
  · rintro ⟨front, rest, hother, hescape⟩
    obtain ⟨rfl, rfl⟩ := h.unique hother
    exact hescape
  · intro hescape
    exact ⟨leader, row, h, hescape⟩

/-- What begins no row has no quotation marks. -/
theorem marksIn_of_idle (h : ∀ c ∈ line, beginsRow c = false) : marksIn line = 0 := by
  have hquote : '"' ∉ line := fun hmem => absurd (h '"' hmem) (by decide)
  rw [← countP_marked_none]
  exact countP_marked_of_not_mem none hquote

/-- In front of its row a line has no marks, so that only the first mark of the row may count
otherwise than on the line. -/
theorem IsRowOf.marksIn_eq (h : IsRowOf line leader row) {front : Text} (hne : front ≠ [])
    (hfront : front <+: row) :
    marksIn front = marksIn (leader ++ front) +
      if leader.getLast? = some '\\' ∧ row.head? = some '"' then 1 else 0 := by
  obtain ⟨c, more, rfl⟩ := List.exists_cons_of_ne_nil hne
  obtain ⟨rest, rfl⟩ := hfront
  rw [← countP_marked_none, ← countP_marked_none, marked_append, List.countP_append,
    countP_marked_none leader, marksIn_of_idle h.idle, Option.or_none, marked, marked,
    List.countP_cons, List.countP_cons]
  by_cases hc : c = '"'
  · by_cases hescape : leader.getLast? = some '\\' <;> simp [hc, hescape]
  · simp [hc]

/-- How a lost escape turns the parity of the marks. -/
theorem IsRowOf.even_iff (h : IsRowOf line leader row) {front : Text} (hne : front ≠ [])
    (hfront : front <+: row) :
    marksIn front % 2 = 0 ↔ (marksIn (leader ++ front) % 2 = 0 ↔ ¬ LosesEscape line) := by
  rw [h.losesEscape_iff, h.marksIn_eq hne hfront]
  split
  · next hescape =>
    simp only [hescape, and_self, not_true, iff_false]
    omega
  · next hescape => simp [hescape]

theorem IsRowOf.ne_nil (h : IsRowOf line leader row) : row ≠ [] := by
  rintro rfl
  obtain ⟨c, hc, -⟩ := h.begins
  exact absurd hc (by simp)

theorem IsRowOf.odd_iff (h : IsRowOf line leader row) :
    marksIn row % 2 = 1 ↔ (marksIn line % 2 = 1 ↔ ¬ LosesEscape line) := by
  have heven := h.even_iff h.ne_nil (List.prefix_refl row)
  rw [← h.line_eq] at heven
  rw [← Nat.mod_two_ne_zero, ← Nat.mod_two_ne_zero, Ne, heven]
  tauto

/-- A line has a row with an odd number of marks exactly if the line itself has, unless it loses an
escape, and then exactly if it has not. -/
theorem exists_odd_row_iff (line : Text) :
    (∃ leader row, IsRowOf line leader row ∧ marksIn row % 2 = 1) ↔
      (marksIn line % 2 = 1 ↔ ¬ LosesEscape line) := by
  constructor
  · rintro ⟨leader, row, h, hodd⟩
    exact h.odd_iff.mp hodd
  · intro hline
    cases hrow : rowOf? line with
    | none =>
      -- Such a line has no marks, and no escape to lose.
      have hodd := hline.mpr fun ⟨leader, row, h, _⟩ =>
        absurd (hrow.symm.trans (rowOf?_eq_some_iff.mpr ⟨leader, h⟩)) (by simp)
      rw [marksIn_of_idle (rowOf?_eq_none_iff.mp hrow)] at hodd
      exact absurd hodd (by decide)
    | some row =>
      obtain ⟨leader, h⟩ := rowOf?_eq_some_iff.mp hrow
      exact ⟨leader, row, h, h.odd_iff.mpr hline⟩

/-- A row is cut at the semicolons with an even number of marks in front of them on the line, or an
odd number if the line loses an escape. -/
theorem IsRowOf.cutsAt (h : IsRowOf line leader row) {pieces : List Text}
    (hpieces : CutsAt ';' (fun front => marksIn front % 2 = 0) [] row pieces) :
    CutsAt ';' (fun front => marksIn front % 2 = 0 ↔ ¬ LosesEscape line) leader row pieces := by
  refine hpieces.congr fun front back hsplit => h.even_iff ?_ ⟨_, hsplit.symm⟩
  rintro rfl
  obtain ⟨c, hc, hbegins⟩ := h.begins
  rw [hsplit] at hc
  obtain rfl : ';' = c := Option.some.inj hc
  exact absurd hbegins (by decide)

/-! ## Lines of a body -/

variable {width number : Nat} {before after : List Text} {fault : Error}

/-- A fault is that of the line it names. -/
theorem readRows_eq_error_at_iff
    (hplace : ∀ other place, LineFault width other place fault → place = number + before.length) :
    readRows width number (before ++ line :: after) = .error fault ↔
      (∀ earlier ∈ before, Fits width earlier) ∧
        LineFault width line (number + before.length) fault := by
  rw [readRows_eq_error_iff_lineFault]
  constructor
  · rintro ⟨front, found, back, hlines, hfits, hfault⟩
    have hlength : before.length = front.length := by
      have hsame := hplace found _ hfault
      omega
    obtain ⟨rfl, hrest⟩ := List.append_inj hlines hlength
    obtain ⟨rfl, -⟩ := List.cons.inj hrest
    exact ⟨hfits, hfault⟩
  · rintro ⟨hfits, hfault⟩
    exact ⟨before, line, after, rfl, hfits, hfault⟩

theorem lineFault_unmatchedQuote_iff :
    LineFault width line number (.unmatchedQuote number) ↔
      ∃ leader row, IsRowOf line leader row ∧ marksIn row % 2 = 1 := by
  constructor
  · intro h
    cases h with
    | unmatchedQuote hrow hodd => exact ⟨_, _, hrow, hodd⟩
  · rintro ⟨leader, row, hrow, hodd⟩
    exact .unmatchedQuote hrow hodd

/-- A fault in the number of fields counts the fields of the line's row. -/
theorem LineFault.got_eq {expected got place : Nat}
    (h : LineFault width line number (.fieldCount place expected got))
    (hrow : rowOf? line = some row) : got = (fields row).length := by
  cases h with
  | fieldCount hvalues hwidth =>
    obtain ⟨found, hfound, -, rfl⟩ := holds_iff.mp hvalues
    rw [Option.some.inj (hrow.symm.trans hfound)]

/-- The row of a line is the one with as many rows in front of it as lines that hold one. -/
theorem getElem?_rows {rows : List (List Text)} (hrow : rowOf? line = some row)
    (h : readRows width number (before ++ line :: after) = .ok rows) :
    rows[(before.filter (·.any beginsRow)).length]? = some (fields row) := by
  obtain ⟨-, rfl⟩ := readRows_eq_ok_iff.mp h
  have hlength : (before.filter (·.any beginsRow)).length =
      ((before.filterMap rowOf?).map fields).length := by
    simp only [any_beginsRow, List.length_map, List.length_filterMap_eq_countP,
      List.countP_eq_length_filter]
  rw [List.filterMap_append, List.filterMap_cons_some hrow, List.map_append, List.map_cons, hlength,
    List.getElem?_append_right (Nat.le_refl _), Nat.sub_self, List.getElem?_cons_zero]

/-- Whether the quotation marks of a line come in pairs, and which of its semicolons separate, is
told by the marks that have no backslash in front of them on the line, unless the line loses an
escape; then it is the other way round. -/
theorem read_unmatchedQuote_iff (header : Text) (headerLine bodyLine : Nat) {body : Text}
    (hlines : bodyLines body = before ++ line :: after) :
    (read header body headerLine bodyLine = .error (.unmatchedQuote (bodyLine + before.length)) ↔
        ¬ HasBlankColumn header ∧ (∀ earlier ∈ before, Fits (columns header).length earlier) ∧
          (marksIn line % 2 = 1 ↔ ¬ LosesEscape line)) ∧
      ∀ leader row, IsRowOf line leader row → ∃ pieces,
        CutsAt ';' (fun front => marksIn front % 2 = 0 ↔ ¬ LosesEscape line) leader row pieces ∧
          (∀ table, read header body headerLine bodyLine = .ok table →
            table.rows[(before.filter (·.any beginsRow)).length]? =
              some (pieces.map (trim isBlank))) ∧
          ∀ expected got, read header body headerLine bodyLine =
              .error (.fieldCount (bodyLine + before.length) expected got) →
            got = pieces.length := by
  constructor
  · by_cases hblank : HasBlankColumn header
    · rw [read_of_blank hblank]
      exact iff_of_false (by simp) fun h => h.1 hblank
    · rw [read_eq_error_iff_of_named hblank, hlines, readRows_eq_error_at_iff,
        lineFault_unmatchedQuote_iff, exists_odd_row_iff]
      · simp [hblank]
      · rintro other place ⟨⟩
        rfl
  · intro leader row hrow
    have hfound := rowOf?_eq_some_iff.mpr ⟨leader, hrow⟩
    obtain ⟨pieces, hpieces, hfields⟩ := fields_eq_iff.mp (Eq.refl (fields row))
    refine ⟨pieces, hrow.cutsAt hpieces, fun table hread => ?_, fun expected got hread => ?_⟩
    · have hnamed := not_hasBlankColumn_of_read hread (by simp)
      have hrows := ((read_eq_ok_iff_of_named hnamed).mp hread).2
      rw [hlines] at hrows
      rw [getElem?_rows hfound hrows, hfields]
    · have hnamed := not_hasBlankColumn_of_read hread (by simp)
      have hrows := (read_eq_error_iff_of_named hnamed).mp hread
      rw [hlines, readRows_eq_error_at_iff] at hrows
      · rw [hrows.2.got_eq hfound, hfields, List.length_map]
      · rintro other place ⟨⟩
        rfl

/-- The only mark of the line has a backslash in front of it, and is unmatched all the same. -/
theorem read_unmatchedQuote_iff_lost :
    let body : Text := ['x', '\n', '-', '\\', '"', 'a', ';', 'b']
    let line : Text := ['-', '\\', '"', 'a', ';', 'b']
    bodyLines body = [['x']] ++ line :: [] ∧ LosesEscape line ∧ marksIn line = 0 ∧
      read ['A'] body 1 2 = .error (.unmatchedQuote 3) ∧ ¬ HasBlankColumn ['A'] ∧
      (∀ earlier ∈ [['x']], Fits 1 earlier) ∧ (marksIn line % 2 = 1 ↔ ¬ LosesEscape line) := by
  intro body line
  have hlines : bodyLines body = [['x']] ++ line :: [] := by decide
  have hidle : ∀ c ∈ ['-', '\\'], beginsRow c = false := by
    simp only [List.forall_mem_cons]
    exact ⟨rfl, rfl, List.forall_mem_nil _⟩
  have hloses : LosesEscape line :=
    ⟨['-', '\\'], ['"', 'a', ';', 'b'], ⟨rfl, hidle, '"', rfl, rfl⟩, rfl, rfl⟩
  have hread : read ['A'] body 1 2 = .error (.unmatchedQuote 3) := by cbv
  exact ⟨hlines, hloses, rfl, hread, (read_unmatchedQuote_iff ['A'] 1 2 hlines).1.mp hread⟩

/-- Only one mark of the line has no backslash in front of it, and the line is read. -/
theorem read_odd_marks :
    let line : Text := ['\\', '"', 'a', '"']
    bodyLines line = [line] ∧ marksIn line % 2 = 1 ∧
      read ['A'] line 1 1 = .ok ⟨[['A']], [[['"', 'a', '"']]]⟩ ∧
      ¬ (read ['A'] line 1 1 = .error (.unmatchedQuote 1) ↔ marksIn line % 2 = 1) := by
  intro line
  have hodd : marksIn line % 2 = 1 := rfl
  have hread : read ['A'] line 1 1 = .ok ⟨[['A']], [[['"', 'a', '"']]]⟩ := by cbv
  refine ⟨by decide, hodd, hread, fun h => ?_⟩
  exact absurd (hread.symm.trans (h.mpr hodd)) (by simp)

end Stencil.Table
