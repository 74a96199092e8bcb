import Stencil.Proofs.Table.Fault
import Stencil.Proofs.Text.Cut

/-!
# Which tables are read

A header is read unless one of its pieces holds nothing but blanks, and a body is read unless one
of its lines is at fault; the first such line tells the fault. A row is described here by its text
alone: the semicolons that cut it are those with an even number of quotation marks in front of them,
however the reader keeps count. What a row is cut into is unique, so that reading decides the
description.
-/

namespace Stencil.Table

open Text

/-- One of the pieces of the header holds nothing but blanks. -/
def HasBlankColumn (header : Text) : Prop :=
  ∃ piece ∈ cut ';' header, ∀ c ∈ piece, isBlank c = true

instance (header : Text) : Decidable (HasBlankColumn header) :=
  decidable_of_iff ((cut ';' header).any (·.all isBlank) = true) (by simp [HasBlankColumn])

/-- The row begins at the first character of its line that begins a row. -/
structure IsRowOf (line leader row : Text) : Prop where
  line_eq : line = leader ++ row
  idle : ∀ c ∈ leader, beginsRow c = false
  begins : ∃ c ∈ row.head?, beginsRow c = true

/-- The line holds a row with these values. -/
def Holds (line : Text) (values : List Text) : Prop :=
  ∃ leader row pieces, IsRowOf line leader row ∧ marksIn row % 2 = 0 ∧
    CutsAt ';' (fun front => marksIn front % 2 = 0) [] row pieces ∧
    values = pieces.map (trim isBlank)

/-- The line leaves the table as wide as it is: it holds no row, or one with as many values. -/
def Fits (width : Nat) (line : Text) : Prop :=
  (∀ c ∈ line, beginsRow c = false) ∨ ∃ values, Holds line values ∧ values.length = width

/-- What is wrong with a line. -/
inductive LineFault (width : Nat) (line : Text) (number : Nat) : Error → Prop
  | unmatchedQuote {leader row : Text} (hrow : IsRowOf line leader row)
      (hodd : marksIn row % 2 = 1) : LineFault width line number (.unmatchedQuote number)
  | fieldCount {values : List Text} (hvalues : Holds line values) (hwidth : values.length ≠ width) :
      LineFault width line number (.fieldCount number width values.length)

/-! ## Rows -/

theorem rowOf?_eq_some_iff {line row : Text} :
    rowOf? line = some row ↔ ∃ leader, IsRowOf line leader row := by
  constructor
  · intro h
    obtain ⟨leader, hline, hidle, hbegins⟩ := exists_leader_of_rowOf? h
    exact ⟨leader, hline, hidle, hbegins⟩
  · rintro ⟨leader, rfl, hidle, c, hc, hbegins⟩
    obtain ⟨rest, rfl⟩ := List.head?_eq_some_iff.mp (Option.mem_def.mp hc)
    exact rowOf?_append hidle hbegins

theorem rowOf?_eq_none_iff {line : Text} :
    rowOf? line = none ↔ ∀ c ∈ line, beginsRow c = false := by
  refine ⟨fun h c hc => ?_, rowOf?_of_idle⟩
  rw [rowOf?] at h
  cases hdrop : line.dropWhile (!beginsRow ·) with
  | nil => simpa using List.dropWhile_eq_nil_iff.mp hdrop c hc
  | cons d rest =>
    rw [hdrop] at h
    exact absurd h (by simp)

/-- One more character is one more mark if it is a quotation mark without a backslash. -/
theorem marksIn_concat (front : Text) (c : Char) :
    marksIn (front ++ [c]) =
      marksIn front + if (c == '"' && front.getLast? != some '\\') = true then 1 else 0 := by
  rw [← countP_marked_none, ← countP_marked_none, marked_append, List.countP_append,
    Option.or_none, marked, marked, List.countP_cons, List.countP_nil, Nat.zero_add]

/-- The scan cuts at the semicolons with an even number of marks in front of them. -/
theorem cutsAt_cutFields (before text : Text) {quoted : Bool}
    (hquoted : quoted = (marksIn before % 2 == 1)) :
    CutsAt ';' (fun front => marksIn front % 2 = 0) before text
      (cutFields quoted (marked before.getLast? text)) := by
  induction text generalizing before quoted with
  | nil => exact .last (by simp)
  | cons c rest ih =>
    have hnext := fun quoted' => @ih (before ++ [c]) quoted'
    rw [List.getLast?_concat, marksIn_concat] at hnext
    rw [marked, cutFields]
    by_cases hmark : (c == '"' && before.getLast? != some '\\') = true
    · -- A mark does not separate, and turns the parity.
      rw [if_pos hmark] at hnext ⊢
      have hc : c = '"' := eq_of_beq (Bool.and_eq_true_iff.mp hmark).1
      refine .cons (fun hsemicolon => absurd (hc.symm.trans hsemicolon) (by decide)) (hnext _ ?_)
      rw [hquoted]
      rcases Nat.mod_two_eq_zero_or_one (marksIn before) with h | h <;> simp [Nat.add_mod, h]
    · rw [if_neg hmark] at hnext ⊢
      split
      · next hcut =>
        obtain ⟨hsemicolon, hfree⟩ := Bool.and_eq_true_iff.mp hcut
        obtain rfl : c = ';' := eq_of_beq hsemicolon
        have heven : marksIn (before ++ []) % 2 = 0 := by
          rw [List.append_nil]
          rw [hquoted] at hfree
          simpa using hfree
        exact @CutsAt.cut _ _ before [] rest _ (by simp) heven
          (by rw [List.append_nil]; exact hnext _ hquoted)
      · next hcut =>
        refine .cons (fun hsemicolon heven => hcut ?_) (hnext _ hquoted)
        rw [hsemicolon, hquoted, heven]
        rfl

/-- The pieces that a row is cut into become its fields. -/
theorem fields_eq_iff {row : Text} {values : List Text} :
    values = fields row ↔ ∃ pieces,
      CutsAt ';' (fun front => marksIn front % 2 = 0) [] row pieces ∧
        values = pieces.map (trim isBlank) := by
  have hcut := @cutsAt_cutFields [] row false rfl
  rw [fields_eq_cutFields]
  constructor
  · intro h
    exact ⟨_, hcut, h⟩
  · rintro ⟨pieces, hpieces, rfl⟩
    rw [hpieces.unique hcut]
    rfl

theorem holds_iff {line : Text} {values : List Text} :
    Holds line values ↔
      ∃ row, rowOf? line = some row ∧ marksIn row % 2 = 0 ∧ values = fields row := by
  constructor
  · rintro ⟨leader, row, pieces, hrow, heven, hpieces, hvalues⟩
    exact ⟨row, rowOf?_eq_some_iff.mpr ⟨leader, hrow⟩, heven,
      fields_eq_iff.mpr ⟨pieces, hpieces, hvalues⟩⟩
  · rintro ⟨row, hrow, heven, hvalues⟩
    obtain ⟨leader, hrow⟩ := rowOf?_eq_some_iff.mp hrow
    obtain ⟨pieces, hpieces, hvalues⟩ := fields_eq_iff.mp hvalues
    exact ⟨leader, row, pieces, hrow, heven, hpieces, hvalues⟩

/-! ## Lines -/

variable {width number : Nat} {line : Text}

theorem holds_and_length_iff {row : Text} {values : List Text} (hrow : rowOf? line = some row) :
    Holds line values ∧ values.length = width ↔ IsGood width row ∧ values = fields row := by
  rw [holds_iff]
  constructor
  · rintro ⟨⟨found, hfound, heven, rfl⟩, hwidth⟩
    obtain rfl := Option.some.inj (hrow.symm.trans hfound)
    exact ⟨⟨heven, hwidth⟩, rfl⟩
  · rintro ⟨hgood, rfl⟩
    exact ⟨⟨row, hrow, hgood.even, rfl⟩, hgood.length_fields⟩

theorem fits_iff : Fits width line ↔ ∀ row ∈ rowOf? line, IsGood width row := by
  rw [Fits, ← rowOf?_eq_none_iff]
  cases hrow : rowOf? line with
  | none => simp
  | some row => simp [holds_and_length_iff hrow]

theorem lineFault_iff {fault : Error} : LineFault width line number fault ↔
    ∃ row, rowOf? line = some row ∧ RowFault width row number fault := by
  constructor
  · rintro (⟨hrow, hodd⟩ | ⟨hvalues, hwidth⟩)
    · exact ⟨_, rowOf?_eq_some_iff.mpr ⟨_, hrow⟩, .unmatchedQuote hodd⟩
    · obtain ⟨row, hrow, heven, rfl⟩ := holds_iff.mp hvalues
      exact ⟨row, hrow, .fieldCount heven hwidth⟩
  · rintro ⟨row, hrow, hfault⟩
    cases hfault with
    | unmatchedQuote hodd =>
      obtain ⟨leader, hrow⟩ := rowOf?_eq_some_iff.mp hrow
      exact .unmatchedQuote hrow hodd
    | fieldCount heven hwidth =>
      exact .fieldCount (holds_iff.mpr ⟨row, hrow, heven, rfl⟩) hwidth

theorem any_beginsRow (line : Text) : line.any beginsRow = (rowOf? line).isSome := by
  cases hrow : rowOf? line with
  | none => simpa [List.any_eq_false] using rowOf?_eq_none_iff.mp hrow
  | some row =>
    rw [Option.isSome_some]
    by_contra hidle
    have hnone := rowOf?_eq_none_iff.mpr (by simpa using hidle)
    exact absurd (hrow.symm.trans hnone) (by simp)

/-- Where all rows are good, the lines that hold one hold what is read from it. -/
theorem forall₂_holds_iff {lines : List Text} {rows : List (List Text)} :
    List.Forall₂ Holds (lines.filter (·.any beginsRow)) rows ∧ (∀ row ∈ rows, row.length = width) ↔
      (∀ line ∈ lines, ∀ row ∈ rowOf? line, IsGood width row) ∧
        rows = (lines.filterMap rowOf?).map fields := by
  simp only [any_beginsRow]
  induction lines generalizing rows with
  | nil =>
    constructor
    · rintro ⟨hnone, -⟩
      exact ⟨List.forall_mem_nil _, List.forall₂_nil_left_iff.mp hnone⟩
    · rintro ⟨-, rfl⟩
      exact ⟨.nil, List.forall_mem_nil _⟩
  | cons line lines ih =>
    cases hrow : rowOf? line with
    | none =>
      rw [List.filter_cons_of_neg (by simp [hrow]), List.filterMap_cons_none hrow, ih,
        List.forall_mem_cons, hrow]
      simp
    | some row =>
      rw [List.filter_cons_of_pos (by simp [hrow]), List.filterMap_cons_some hrow, List.map_cons,
        List.forall_mem_cons, List.forall₂_cons_left_iff]
      constructor
      · rintro ⟨⟨values, rest, hvalues, hrest, rfl⟩, hlengths⟩
        obtain ⟨hlength, hwidth⟩ := List.forall_mem_cons.mp hlengths
        obtain ⟨hgood, rfl⟩ := (holds_and_length_iff hrow).mp ⟨hvalues, hlength⟩
        obtain ⟨hothers, rfl⟩ := ih.mp ⟨hrest, hwidth⟩
        exact ⟨⟨by simpa [hrow] using hgood, hothers⟩, rfl⟩
      · rintro ⟨⟨hgood, hothers⟩, rfl⟩
        obtain ⟨hvalues, hlength⟩ := (holds_and_length_iff hrow).mpr ⟨hgood row hrow, rfl⟩
        obtain ⟨hrest, hwidth⟩ := ih.mpr ⟨hothers, rfl⟩
        exact ⟨⟨_, _, hvalues, hrest, rfl⟩, List.forall_mem_cons.mpr ⟨hlength, hwidth⟩⟩

/-- Reading the rows of some lines fails with the fault of the first line that does not fit. -/
theorem readRows_eq_error_iff_lineFault {lines : List Text} {fault : Error} :
    readRows width number lines = .error fault ↔
      ∃ before line after, lines = before ++ line :: after ∧
        (∀ earlier ∈ before, Fits width earlier) ∧
        LineFault width line (number + before.length) fault := by
  rw [readRows_eq_error_iff]
  simp only [fits_iff, lineFault_iff, exists_and_left]

/-! ## Tables -/

/-- A column is without a name exactly if its piece of the header is blank. -/
theorem any_isEmpty_columns (header : Text) :
    (columns header).any (·.isEmpty) = true ↔ HasBlankColumn header := by
  simp [columns, HasBlankColumn, trim_eq_nil_iff]

variable {header body : Text} {headerLine bodyLine : Nat}

theorem read_of_blank (h : HasBlankColumn header) :
    read header body headerLine bodyLine = .error (.emptyColumn headerLine) :=
  if_pos ((any_isEmpty_columns header).mpr h)

theorem not_hasBlankColumn_of_read {result : Except Error Table}
    (h : read header body headerLine bodyLine = result)
    (hresult : result ≠ .error (.emptyColumn headerLine)) : ¬ HasBlankColumn header :=
  fun hblank => hresult (h.symm.trans (read_of_blank hblank))

/-- Once all columns have names, the rest is up to the body. -/
theorem read_of_named (h : ¬ HasBlankColumn header) :
    read header body headerLine bodyLine =
      (readRows (columns header).length bodyLine (bodyLines body)).map fun rows =>
        ⟨columns header, rows⟩ := by
  rw [read, if_neg (mt (any_isEmpty_columns header).mp h)]
  cases readRows (columns header).length bodyLine (bodyLines body) <;> rfl

theorem read_eq_error_iff_of_named (h : ¬ HasBlankColumn header) {fault : Error} :
    read header body headerLine bodyLine = .error fault ↔
      readRows (columns header).length bodyLine (bodyLines body) = .error fault := by
  rw [read_of_named h]
  cases readRows (columns header).length bodyLine (bodyLines body) <;> simp [Except.map]

theorem read_eq_ok_iff_of_named (h : ¬ HasBlankColumn header) {table : Table} :
    read header body headerLine bodyLine = .ok table ↔ table.header = columns header ∧
      readRows (columns header).length bodyLine (bodyLines body) = .ok table.rows := by
  rw [read_of_named h]
  obtain ⟨names, rows⟩ := table
  cases readRows (columns header).length bodyLine (bodyLines body) <;>
    simp [Except.map, eq_comm (a := names)]

/-- A table that cannot be read has a column without a name, or one of its rows is at fault. -/
theorem blank_or_rowFault_of_read {fault : Error}
    (h : read header body headerLine bodyLine = .error fault) :
    HasBlankColumn header ∧ fault = .emptyColumn headerLine ∨
      ∃ width row line, RowFault width row line fault := by
  by_cases hblank : HasBlankColumn header
  · rw [read_of_blank hblank] at h
    exact Or.inl ⟨hblank, (Except.error.inj h).symm⟩
  · rw [read_eq_error_iff_of_named hblank, readRows_eq_error_iff] at h
    obtain ⟨before, line, after, row, -, -, -, hfault⟩ := h
    exact Or.inr ⟨_, row, _, hfault⟩

/-- Each row of a table that is read has a field for each column. -/
theorem length_of_mem_rows {table : Table} (h : read header body headerLine bodyLine = .ok table)
    {row : List Text} (hrow : row ∈ table.rows) : row.length = table.header.length := by
  have hnamed := not_hasBlankColumn_of_read h (by simp)
  obtain ⟨hheader, hrows⟩ := (read_eq_ok_iff_of_named hnamed).mp h
  rw [hheader]
  exact (forall₂_holds_iff.mpr (readRows_eq_ok_iff.mp hrows)).2 row hrow

/-- A table is read exactly as its header and the lines of its body tell, and otherwise the first
fault is reported. -/
theorem read_eq_iff (header body : Text) (headerLine bodyLine : Nat) :
    (read header body headerLine bodyLine = .error (.emptyColumn headerLine) ↔
        HasBlankColumn header) ∧
      (¬ HasBlankColumn header →
        (∀ fault, read header body headerLine bodyLine = .error fault ↔
          ∃ before line after, bodyLines body = before ++ line :: after ∧
            (∀ earlier ∈ before, Fits (columns header).length earlier) ∧
            LineFault (columns header).length line (bodyLine + before.length) fault) ∧
        ∀ table, read header body headerLine bodyLine = .ok table ↔
          table.header = columns header ∧
            List.Forall₂ Holds ((bodyLines body).filter (·.any beginsRow)) table.rows ∧
            ∀ row ∈ table.rows, row.length = (columns header).length) := by
  constructor
  · refine ⟨fun hread => ?_, read_of_blank⟩
    by_contra hnamed
    rw [read_eq_error_iff_of_named hnamed, readRows_eq_error_iff_lineFault] at hread
    obtain ⟨before, line, after, -, -, hfault⟩ := hread
    cases hfault
  · intro hnamed
    constructor
    · intro fault
      rw [read_eq_error_iff_of_named hnamed, readRows_eq_error_iff_lineFault]
    · intro table
      rw [read_eq_ok_iff_of_named hnamed, forall₂_holds_iff, readRows_eq_ok_iff]

/-- A quoted semicolon and a mark behind a backslash are read; a line with an odd number of marks is
at fault, whatever the number of its fields. -/
theorem read_eq_iff_quotes :
    let header : Text := ['A', ';', ' ', 'B']
    let line : Text := ['-', ' ', 'ü', ';', '"', ';', '\\', '"', '"', '\t']
    let odd : Text := ['x', ';', '"', ';', 'y']
    ¬ HasBlankColumn header ∧
      List.Forall₂ Holds ((bodyLines (line ++ ['\n', '-'])).filter (·.any beginsRow))
        [[['ü'], ['"', ';', '\\', '"', '"']]] ∧
      ∃ before found after, bodyLines (line ++ '\n' :: odd) = before ++ found :: after ∧
        (∀ earlier ∈ before, Fits 2 earlier) ∧
        LineFault 2 found (4 + before.length) (.unmatchedQuote 5) := by
  intro header line odd
  have hnamed : ¬ HasBlankColumn header := by decide
  have hok := ((read_eq_iff header (line ++ ['\n', '-']) 3 4).2 hnamed).2
    ⟨[['A'], ['B']], [[['ü'], ['"', ';', '\\', '"', '"']]]⟩
  have herror := ((read_eq_iff header (line ++ '\n' :: odd) 3 4).2 hnamed).1 (.unmatchedQuote 5)
  exact ⟨hnamed, (hok.mp (by cbv)).2.1, herror.mp (by cbv)⟩

end Stencil.Table
