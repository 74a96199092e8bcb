import Stencil.Proofs.Table.Written

/-!
# Faults of a table

The first bad row of a body ends the reading of a table, and the fault names its line. Lines are
counted one by one while they are read, and a body is cut into lines with their line breaks taken
off; the count is that of the line feeds in front of the row all the same.
-/

namespace Stencil.Table

open Text

/-- The row fits into a table: its quotation marks come in pairs, and each column has a field. -/
structure IsGood (width : Nat) (row : Text) : Prop where
  even : marksIn row % 2 = 0
  length_fields : (fields row).length = width

/-- What is wrong with a row that stands on some line. The fields of a row are counted only if its
quotation marks come in pairs. -/
inductive RowFault (width : Nat) (row : Text) (line : Nat) : Error → Prop
  | unmatchedQuote (hodd : marksIn row % 2 = 1) : RowFault width row line (.unmatchedQuote line)
  | fieldCount (heven : marksIn row % 2 = 0) (hwidth : (fields row).length ≠ width) :
      RowFault width row line (.fieldCount line width (fields row).length)

/-- A row is good, or something is wrong with it. -/
theorem exists_rowFault_iff {width line : Nat} {row : Text} :
    (∃ fault, RowFault width row line fault) ↔ ¬ IsGood width row := by
  constructor
  · rintro ⟨fault, hfault⟩ hgood
    cases hfault with
    | unmatchedQuote hodd =>
      have heven := hgood.even
      omega
    | fieldCount _ hwidth => exact hwidth hgood.length_fields
  · intro hbad
    by_cases heven : marksIn row % 2 = 0
    · exact ⟨_, .fieldCount heven fun hwidth => hbad ⟨heven, hwidth⟩⟩
    · exact ⟨_, .unmatchedQuote (by omega)⟩

theorem RowFault.not_isGood {width line : Nat} {row : Text} {fault : Error}
    (h : RowFault width row line fault) : ¬ IsGood width row := exists_rowFault_iff.mp ⟨fault, h⟩

/-- A line goes on with nothing, or with a line break that takes no carriage return from it. -/
def EndsLine (line rest : Text) : Prop :=
  rest = [] ∨ ∃ feed more, rest = feed ++ more ∧ IsFeed feed ∧
    (feed = ['\n'] → line.getLast? ≠ some '\r')

/-- The first bad row of a body, where it stands: behind a leader on its line, and behind whole
lines whose rows are all good. -/
structure IsFirstBad (width : Nat) (body ahead leader row : Text) : Prop where
  whole : EndsIn '\n' ahead
  good : ∀ line ∈ bodyLines ahead, ∀ other ∈ rowOf? line, IsGood width other
  idle : ∀ c ∈ leader, beginsRow c = false
  begins : ∃ c ∈ row.head?, beginsRow c = true
  one_line : '\n' ∉ leader ++ row
  stands : ∃ rest, body = ahead ++ (leader ++ row) ++ rest ∧ EndsLine (leader ++ row) rest
  bad : ¬ IsGood width row

/-! ## Lines -/

/-- A row begins behind a leader, at the first character that begins one. -/
theorem exists_leader_of_rowOf? {line row : Text} (h : rowOf? line = some row) :
    ∃ leader, line = leader ++ row ∧ (∀ c ∈ leader, beginsRow c = false) ∧
      ∃ c ∈ row.head?, beginsRow c = true := by
  have hsplit := List.takeWhile_append_dropWhile (p := (!beginsRow ·)) (l := line)
  have hidle : ∀ c ∈ line.takeWhile (!beginsRow ·), beginsRow c = false :=
    fun c hc => by simpa using List.mem_takeWhile_imp hc
  have hhead := @head?_dropWhile (!beginsRow ·) line
  rw [rowOf?] at h
  cases hdrop : line.dropWhile (!beginsRow ·) with
  | nil =>
    rw [hdrop] at h
    exact absurd h (by simp)
  | cons c rest =>
    rw [hdrop] at h hsplit hhead
    obtain rfl : c :: rest = row := Option.some.inj h
    exact ⟨_, hsplit.symm, hidle, c, rfl, by simpa using hhead c rfl⟩

/-- A line of a body stands between whole lines, which are the lines in front of it, and its own
line break. -/
theorem exists_ahead_of_bodyLines {body line : Text} {before after : List Text}
    (h : bodyLines body = before ++ line :: after) :
    ∃ ahead rest, body = ahead ++ line ++ rest ∧ EndsIn '\n' ahead ∧ bodyLines ahead = before ∧
      ahead.count '\n' = before.length ∧ '\n' ∉ line ∧ EndsLine line rest := by
  induction body using line_induction generalizing before with
  | last body hfeed =>
    rw [bodyLines_of_not_mem hfeed] at h
    split at h
    · exact absurd h (by simp)
    · obtain ⟨rfl, rfl, -⟩ : before = [] ∧ line = body ∧ after = [] := by
        cases before <;> simp_all
      exact ⟨[], [], by simp, endsIn_nil _, rfl, rfl, hfeed, Or.inl rfl⟩
  | step first body hfeed ih =>
    rw [bodyLines_append body hfeed] at h
    cases before with
    | nil =>
      obtain ⟨rfl, -⟩ := List.cons.inj h
      split
      · next hreturn =>
        obtain ⟨front, rfl⟩ := List.getLast?_eq_some_iff.mp hreturn
        refine ⟨[], ['\r', '\n'] ++ body, by simp, endsIn_nil _, rfl, rfl, ?_, Or.inr ?_⟩
        · simp_all
        · exact ⟨_, body, rfl, Or.inr rfl, by simp⟩
      · next hreturn =>
        exact ⟨[], '\n' :: body, rfl, endsIn_nil _, rfl, rfl, hfeed,
          Or.inr ⟨['\n'], body, rfl, Or.inl rfl, fun _ => hreturn⟩⟩
    | cons found before =>
      obtain ⟨rfl, hrest⟩ := List.cons.inj h
      obtain ⟨ahead, rest, rfl, hahead, hlines, hcount, hline, hends⟩ := ih hrest
      refine ⟨first ++ '\n' :: ahead, rest, by simp, ?_, ?_, ?_, hline, hends⟩
      · have hbegin := endsIn_append_singleton '\n' first
        simpa using hbegin.append hahead
      · rw [bodyLines_append ahead hfeed, hlines]
      · rw [List.count_append, List.count_eq_zero_of_not_mem hfeed, List.count_cons_self, hcount,
          List.length_cons, Nat.zero_add]

/-! ## Rows -/

/-- A bad row ends the reading with its fault. -/
theorem readRows_of_bad {width number : Nat} {line row : Text} (rest : List Text) {fault : Error}
    (hrow : rowOf? line = some row) (hfault : RowFault width row number fault) :
    readRows width number (line :: rest) = .error fault := by
  rw [readRows, hrow]
  simp only [length_quotes]
  cases hfault with
  | unmatchedQuote hodd => rw [if_pos (by omega)]
  | fieldCount heven hwidth => rw [if_neg (not_not.mpr heven), if_pos hwidth]

/-- A good row is read in front of the rows behind it. -/
theorem readRows_of_good {width number : Nat} {line row : Text} (rest : List Text)
    (hrow : rowOf? line = some row) (hgood : IsGood width row) :
    readRows width number (line :: rest) =
      (readRows width (number + 1) rest).map (fields row :: ·) := by
  obtain ⟨heven, hwidth⟩ := hgood
  cases hrest : readRows width (number + 1) rest with
  | error fault => simp [readRows, hrow, length_quotes, heven, hwidth, hrest, Except.map]
  | ok rows => exact readRows_of_row hrow (by rw [length_quotes, heven]) hwidth hrest

/-- The lines of good rows are read as the fields of these rows. -/
theorem readRows_eq_ok_iff {width number : Nat} {lines : List Text} {rows : List (List Text)} :
    readRows width number lines = .ok rows ↔
      (∀ line ∈ lines, ∀ row ∈ rowOf? line, IsGood width row) ∧
        rows = (lines.filterMap rowOf?).map fields := by
  induction lines generalizing number rows with
  | nil => simp [readRows, eq_comm]
  | cons line lines ih =>
    cases hrow : rowOf? line with
    | none =>
      rw [readRows_of_idle lines hrow, ih]
      simp [hrow]
    | some row =>
      by_cases hgood : IsGood width row
      · have hmap : (readRows width (number + 1) lines).map (fields row :: ·) = .ok rows ↔
            ∃ others, readRows width (number + 1) lines = .ok others ∧
              fields row :: others = rows := by
          cases readRows width (number + 1) lines <;> simp [Except.map]
        rw [readRows_of_good lines hrow hgood, hmap]
        simp [ih, hrow, hgood, and_assoc, eq_comm (a := rows)]
      · obtain ⟨fault, hfault⟩ := exists_rowFault_iff.mpr hgood
        rw [readRows_of_bad lines hrow hfault]
        simp [hrow, hgood]

/-- A line with a good row, or with none, leaves a fault to the lines behind it. -/
theorem readRows_eq_error_of_good {width number : Nat} {line : Text} (rest : List Text)
    {fault : Error} (hgood : ∀ row ∈ rowOf? line, IsGood width row) :
    readRows width number (line :: rest) = .error fault ↔
      readRows width (number + 1) rest = .error fault := by
  cases hrow : rowOf? line with
  | none => rw [readRows_of_idle rest hrow]
  | some row =>
    rw [readRows_of_good rest hrow (hgood row hrow)]
    cases readRows width (number + 1) rest <;> simp [Except.map]

/-- Reading rows fails at the first line whose row is bad; each line in front of it counts. -/
theorem readRows_eq_error_iff {width number : Nat} {lines : List Text} {fault : Error} :
    readRows width number lines = .error fault ↔
      ∃ before line after row, lines = before ++ line :: after ∧
        (∀ earlier ∈ before, ∀ other ∈ rowOf? earlier, IsGood width other) ∧
        rowOf? line = some row ∧ RowFault width row (number + before.length) fault := by
  induction lines generalizing number with
  | nil => simp [readRows]
  | cons first rest ih =>
    have hnumber : ∀ before : List Text,
        number + (first :: before).length = number + 1 + before.length := by
      intro before
      rw [List.length_cons]
      omega
    constructor
    · intro h
      by_cases hgood : ∀ row ∈ rowOf? first, IsGood width row
      · obtain ⟨before, line, after, row, rfl, hbefore, hrow, hfault⟩ :=
          ih.mp ((readRows_eq_error_of_good rest hgood).mp h)
        rw [← hnumber before] at hfault
        exact ⟨first :: before, line, after, row, rfl,
          List.forall_mem_cons.mpr ⟨hgood, hbefore⟩, hrow, hfault⟩
      · simp only [not_forall] at hgood
        obtain ⟨row, hrow, hbad⟩ := hgood
        obtain ⟨found, hfound⟩ := @exists_rowFault_iff width number row |>.mpr hbad
        rw [readRows_of_bad rest hrow hfound] at h
        obtain rfl := Except.error.inj h
        exact ⟨[], first, rest, row, rfl, List.forall_mem_nil _, hrow, hfound⟩
    · rintro ⟨before, line, after, row, hlines, hbefore, hrow, hfault⟩
      cases before with
      | nil =>
        obtain ⟨rfl, rfl⟩ := List.cons.inj hlines
        exact readRows_of_bad rest hrow hfault
      | cons found before =>
        obtain ⟨rfl, rfl⟩ := List.cons.inj hlines
        obtain ⟨hgood, hbefore⟩ := List.forall_mem_cons.mp hbefore
        rw [hnumber before] at hfault
        exact (readRows_eq_error_of_good _ hgood).mpr
          (ih.mpr ⟨before, line, after, row, rfl, hbefore, hrow, hfault⟩)

/-- A table that cannot be read has a column without a name, or a body with a bad row; its fault
names the line of the first one. -/
theorem exists_isFirstBad_of_read {header body : Text} {headerLine bodyLine : Nat} {fault : Error}
    (h : read header body headerLine bodyLine = .error fault)
    (hcolumns : fault ≠ .emptyColumn headerLine) :
    ∃ ahead leader row, IsFirstBad (columns header).length body ahead leader row ∧
      RowFault (columns header).length row (bodyLine + ahead.count '\n') fault := by
  rw [read] at h
  split at h
  · exact absurd (Except.error.inj h).symm hcolumns
  · cases hrows : readRows (columns header).length bodyLine (bodyLines body) with
    | ok rows =>
      rw [hrows] at h
      exact absurd h (by simp)
    | error found =>
      rw [hrows] at h
      obtain rfl := Except.error.inj h
      obtain ⟨before, line, after, row, hlines, hgood, hrow, hfault⟩ :=
        readRows_eq_error_iff.mp hrows
      obtain ⟨ahead, rest, hbody, hwhole, rfl, hcount, hline, hends⟩ :=
        exists_ahead_of_bodyLines hlines
      obtain ⟨leader, rfl, hidle, hbegins⟩ := exists_leader_of_rowOf? hrow
      rw [← hcount] at hfault
      exact ⟨ahead, leader, row,
        ⟨hwhole, hgood, hidle, hbegins, hline, ⟨rest, hbody, hends⟩, hfault.not_isGood⟩, hfault⟩

end Stencil.Table
