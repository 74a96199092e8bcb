import Stencil.Proofs.Table.Offset

/-!
# Written tables

A header and rows that are written as a table are read back. Each row stands on a line of its own,
behind a leader that begins no row, and lines that begin no row may stand anywhere between the rows.
The blanks around a field, the leader and either kind of line break are taken off again, and nothing
of a field goes with them.
-/

namespace Stencil

open Text

namespace Text

theorem Pads.not_mem {value text : Text} {c : Char} (h : Pads value text) (hc : isBlank c = false)
    (hvalue : c ∉ value) : c ∉ text := by
  obtain ⟨lead, trail, hlead, htrail, rfl⟩ := h
  simp only [List.mem_append, not_or]
  exact ⟨⟨not_mem_of_forall c hlead hc, hvalue⟩, not_mem_of_forall c htrail hc⟩

end Text

namespace Table

/-- A column can have this name. -/
structure IsName (name : Text) : Prop extends IsTrimmed name where
  ne_nil : name ≠ []
  separator : ';' ∉ name

instance (name : Text) : Decidable (IsName name) :=
  decidable_of_iff (IsTrimmed name ∧ name ≠ [] ∧ ';' ∉ name)
    ⟨fun h => ⟨h.1, h.2.1, h.2.2⟩, fun h => ⟨h.toIsTrimmed, h.ne_nil, h.separator⟩⟩

/-- A row can have this field. -/
structure IsField (field : Text) : Prop extends IsTrimmed field, IsClosed field where
  feed : '\n' ∉ field

instance (field : Text) : Decidable (IsField field) :=
  decidable_of_iff (IsTrimmed field ∧ IsClosed field ∧ '\n' ∉ field)
    ⟨fun h => ⟨h.1, h.2.1, h.2.2⟩, fun h => ⟨h.toIsTrimmed, h.toIsClosed, h.feed⟩⟩

/-- These fields can stand on one line. -/
structure IsRow (row : List Text) : Prop where
  fields : ∀ field ∈ row, IsField field
  begins : ∃ c rest others, row = (c :: rest) :: others ∧ beginsRow c = true
  ends : ∀ field ∈ row.getLast?, field.getLast? ≠ some '\r'

/-- The text is some values joined by semicolons, with any blanks around each of them. -/
def JoinsPadded (values : List Text) (text : Text) : Prop :=
  ∃ pieces, List.Forall₂ Pads values pieces ∧ text = join ';' pieces

/-- The text is some rows, each written on a line of its own, among lines without rows. -/
inductive WrittenRows : List (List Text) → Text → Prop
  /-- The last line need not be ended. -/
  | last {line : Text} (hfeed : '\n' ∉ line) (hidle : ∀ c ∈ line, beginsRow c = false) :
      WrittenRows [] line
  | idle {rows : List (List Text)} {line rest : Text} (hfeed : '\n' ∉ line)
      (hidle : ∀ c ∈ line, beginsRow c = false) (hrest : WrittenRows rows rest) :
      WrittenRows rows (line ++ '\n' :: rest)
  | row {row : List Text} {rows : List (List Text)} {leader text feed rest : Text}
      (hleader : '\n' ∉ leader) (hidle : ∀ c ∈ leader, beginsRow c = false)
      (htext : JoinsPadded row text) (hfeed : IsFeed feed) (hrest : WrittenRows rows rest) :
      WrittenRows (row :: rows) (leader ++ text ++ feed ++ rest)

/-! ## Lines -/

/-- A line and the lines behind it are read apart; a carriage return goes with the line feed. -/
theorem bodyLines_append {line : Text} (rest : Text) (h : '\n' ∉ line) :
    bodyLines (line ++ '\n' :: rest) =
      (if line.getLast? = some '\r' then line.dropLast else line) :: bodyLines rest := by
  have hpieces : pieces (line ++ '\n' :: rest) = line :: pieces rest := by
    rw [pieces, cut_append_cons, cut_of_not_mem h]
    rfl
  rw [bodyLines, bodyLines, hpieces]
  cases hrest : pieces rest with
  | nil => exact absurd hrest (cut_ne_nil '\n' rest)
  | cons first others =>
    rw [List.dropLast_cons_cons, List.map_cons, List.getLast?_cons_cons]
    cases hlast : (first :: others).getLast? with
    | none => rfl
    | some last => cases last <;> rfl

theorem bodyLines_of_not_mem {line : Text} (h : '\n' ∉ line) :
    bodyLines line = if line = [] then [] else [line] := by
  rw [bodyLines, pieces, cut_of_not_mem h]
  cases line <;> rfl

theorem rowOf?_of_idle {line : Text} (h : ∀ c ∈ line, beginsRow c = false) :
    rowOf? line = none := by
  have hdrop : line.dropWhile (!beginsRow ·) = [] := by
    simpa [List.dropWhile_eq_nil_iff] using h
  rw [rowOf?, hdrop]

/-- A row begins at the first character that begins one. -/
theorem rowOf?_append {leader rest : Text} {c : Char} (h : ∀ d ∈ leader, beginsRow d = false)
    (hc : beginsRow c = true) : rowOf? (leader ++ c :: rest) = some (c :: rest) := by
  have hleader : ∀ d ∈ leader, (!beginsRow d) = true := by simpa using h
  have hdrop : (leader ++ c :: rest).dropWhile (!beginsRow ·) = c :: rest :=
    dropWhile_run hleader (by simp [hc])
  rw [rowOf?, hdrop]

theorem readRows_of_idle {width number : Nat} {line : Text} (rest : List Text)
    (h : rowOf? line = none) :
    readRows width number (line :: rest) = readRows width (number + 1) rest := by
  rw [readRows, h]

theorem readRows_of_row {width number : Nat} {line row : Text} {rest : List Text}
    {rows : List (List Text)} (hrow : rowOf? line = some row) (hquotes : (quotes row).length % 2 = 0)
    (hwidth : (fields row).length = width)
    (hrest : readRows width (number + 1) rest = .ok rows) :
    readRows width number (line :: rest) = .ok (fields row :: rows) := by
  rw [readRows, hrow, hrest]
  simp [hquotes, hwidth]

/-! ## Rows -/

private theorem map_trim {values pieces : List Text} (h : List.Forall₂ Pads values pieces)
    (hvalues : ∀ value ∈ values, IsTrimmed value) : pieces.map (trim isBlank) = values := by
  induction h with
  | nil => rfl
  | cons hpads _ ih =>
    rw [List.map_cons, hpads.trim_eq (hvalues _ List.mem_cons_self),
      ih fun value hvalue => hvalues value (List.mem_cons_of_mem _ hvalue)]

private theorem exists_of_mem_pieces {values pieces : List Text}
    (h : List.Forall₂ Pads values pieces) {piece : Text} (hpiece : piece ∈ pieces) :
    ∃ value ∈ values, Pads value piece := by
  induction h with
  | nil => exact absurd hpiece List.not_mem_nil
  | cons hpads _ ih =>
    rcases List.mem_cons.mp hpiece with rfl | hmem
    · exact ⟨_, List.mem_cons_self, hpads⟩
    · obtain ⟨value, hvalue, hvaluePads⟩ := ih hmem
      exact ⟨value, List.mem_cons_of_mem _ hvalue, hvaluePads⟩

/-- The names of a header are read back. -/
theorem columns_of_joinsPadded {names : List Text} {header : Text} (hne : names ≠ [])
    (hnames : ∀ name ∈ names, IsName name) (h : JoinsPadded names header) :
    columns header = names := by
  obtain ⟨pieces, hpads, rfl⟩ := h
  have hpieces : pieces ≠ [] := by
    rintro rfl
    cases hpads
    exact hne rfl
  have hmark : ∀ piece ∈ pieces, ';' ∉ piece := by
    intro piece hpiece
    obtain ⟨name, hname, hvalue⟩ := exists_of_mem_pieces hpads hpiece
    exact hvalue.not_mem (by decide) (hnames name hname).separator
  rw [columns, cut_join hpieces hmark,
    map_trim hpads fun name hname => (hnames name hname).toIsTrimmed]

namespace IsRow

variable {row : List Text} {text : Text}

/-- The fields of a row are read back. -/
theorem fields_eq (h : IsRow row) (htext : JoinsPadded row text) :
    Table.fields text = row ∧ (quotes text).length % 2 = 0 := by
  obtain ⟨pieces, hpads, rfl⟩ := htext
  have hclosed : ∀ piece ∈ pieces, IsClosed piece := by
    intro piece hpiece
    obtain ⟨field, hfield, hvalue⟩ := exists_of_mem_pieces hpads hpiece
    exact (h.fields field hfield).toIsClosed.pad hvalue
  have hpieces : pieces ≠ [] := by
    rintro rfl
    obtain ⟨c, rest, others, rfl, -⟩ := h.begins
    cases hpads
  constructor
  · rw [fields_eq_cutFields, cutFields_join (Option.some_ne_none '\\').symm hpieces hclosed,
      map_trim hpads fun field hfield => (h.fields field hfield).toIsTrimmed]
  · rw [length_quotes, marksIn_join hclosed]

/-- A row is found behind its leader; the blanks in front of its first field count as leader. -/
theorem exists_rowOf? (h : IsRow row) {leader : Text} (hidle : ∀ c ∈ leader, beginsRow c = false)
    (htext : JoinsPadded row text) :
    ∃ found, rowOf? (leader ++ text) = some found ∧ JoinsPadded row found := by
  obtain ⟨c, first, others, rfl, hc⟩ := h.begins
  obtain ⟨pieces, hpads, rfl⟩ := htext
  cases hpads with
  | @cons _ _ _ pieces hfirst hothers =>
    obtain ⟨lead, trail, hlead, htrail, rfl⟩ := hfirst
    have hblank : ∀ d, isBlank d = true → beginsRow d = false := by
      intro d hd
      simp only [isBlank, Bool.or_eq_true, beq_iff_eq] at hd
      rcases hd with rfl | rfl <;> decide
    have hfront : ∀ d ∈ leader ++ lead, beginsRow d = false := by
      intro d hd
      exact (List.mem_append.mp hd).elim (hidle d) fun hmem => hblank d (hlead d hmem)
    have htext : leader ++ join ';' ((lead ++ (c :: first) ++ trail) :: pieces) =
        leader ++ lead ++ c :: join ';' ((first ++ trail) :: pieces) := by
      have hbegin := join_append_cons ';' [c] (first ++ trail) pieces
      rw [List.append_assoc lead, join_append_cons, List.append_assoc leader]
      exact congrArg (fun rest => leader ++ (lead ++ rest)) hbegin
    refine ⟨c :: join ';' ((first ++ trail) :: pieces), ?_, ?_⟩
    · rw [htext, rowOf?_append hfront hc]
    · refine ⟨(c :: first ++ trail) :: pieces, List.Forall₂.cons ?_ hothers, ?_⟩
      · exact ⟨[], trail, by simp, htrail, rfl⟩
      · exact (join_append_cons ';' [c] (first ++ trail) pieces).symm

theorem ne_nil (h : IsRow row) (htext : JoinsPadded row text) : text ≠ [] := by
  rintro rfl
  obtain ⟨found, hfound, -⟩ := h.exists_rowOf? (List.forall_mem_nil _) htext
  simp [rowOf?] at hfound

theorem feed_not_mem (h : IsRow row) (htext : JoinsPadded row text) : '\n' ∉ text := by
  obtain ⟨pieces, hpads, rfl⟩ := htext
  refine not_mem_join (by decide) fun piece hpiece => ?_
  obtain ⟨field, hfield, hvalue⟩ := exists_of_mem_pieces hpads hpiece
  exact hvalue.not_mem (by decide) (h.fields field hfield).feed

/-- The written row ends in a blank, a semicolon or its last field. -/
theorem return_ne_last (h : IsRow row) (htext : JoinsPadded row text) :
    text.getLast? ≠ some '\r' := by
  obtain ⟨pieces, hpads, rfl⟩ := htext
  have hends := h.ends
  clear h
  induction hpads with
  | nil => simp [join]
  | @cons value piece values pieces hpads hrest ih =>
    cases hrest with
    | nil =>
      obtain ⟨lead, trail, hlead, htrail, rfl⟩ := hpads
      have hvalue := hends value rfl
      intro hlast
      rw [join, List.getLast?_append, List.getLast?_append] at hlast
      cases htail : trail.getLast? with
      | some c =>
        rw [htail] at hlast
        obtain rfl := Option.some.inj hlast
        exact absurd (htrail _ (List.mem_of_getLast? htail)) (by decide)
      | none =>
        rw [htail, Option.none_or] at hlast
        cases hbody : value.getLast? with
        | some c =>
          rw [hbody] at hlast hvalue
          exact hvalue hlast
        | none =>
          rw [hbody, Option.none_or] at hlast
          exact absurd (hlead _ (List.mem_of_getLast? hlast)) (by decide)
    | @cons second piece₂ others pieces₂ hsecond hothers =>
      have hlater := ih fun field hfield => hends field (by rwa [List.getLast?_cons_cons])
      rw [join_cons_cons, List.getLast?_append, List.getLast?_cons]
      cases hjoin : (join ';' (piece₂ :: pieces₂)).getLast? with
      | none => simp
      | some c => simpa [hjoin] using hlater

/-- A written row is a line of the body, whichever line break ends it. -/
theorem bodyLines_eq (h : IsRow row) {leader feed : Text} (rest : Text) (hleader : '\n' ∉ leader)
    (htext : JoinsPadded row text) (hfeed : IsFeed feed) :
    bodyLines (leader ++ text ++ feed ++ rest) = (leader ++ text) :: bodyLines rest := by
  have hline : '\n' ∉ leader ++ text := by
    simp only [List.mem_append, not_or]
    exact ⟨hleader, h.feed_not_mem htext⟩
  rcases hfeed with rfl | rfl
  · have hlast : (leader ++ text).getLast? ≠ some '\r' := by
      rw [List.getLast?_append_of_ne_nil _ (h.ne_nil htext)]
      exact h.return_ne_last htext
    rw [List.append_assoc, List.singleton_append, bodyLines_append rest hline, if_neg hlast]
  · have hreturn : '\n' ∉ leader ++ text ++ ['\r'] := by
      simp only [List.mem_append (s := leader ++ text), not_or]
      exact ⟨hline, by decide⟩
    have hsplit : leader ++ text ++ ['\r', '\n'] ++ rest =
        leader ++ text ++ ['\r'] ++ '\n' :: rest := by
      simp only [List.append_assoc, List.cons_append, List.nil_append]
    rw [hsplit, bodyLines_append rest hreturn, List.getLast?_concat, if_pos rfl,
      List.dropLast_concat]

end IsRow

/-- Written rows are read back, from whichever line they begin on. -/
theorem readRows_written {width : Nat} {rows : List (List Text)} {body : Text}
    (hbody : WrittenRows rows body) (hrows : ∀ row ∈ rows, IsRow row ∧ row.length = width)
    (number : Nat) : readRows width number (bodyLines body) = .ok rows := by
  induction hbody generalizing number with
  | @last line hfeed hidle =>
    rw [bodyLines_of_not_mem hfeed]
    split
    · rfl
    · rw [readRows_of_idle [] (rowOf?_of_idle hidle)]
      rfl
  | @idle rows line rest hfeed hidle hrest ih =>
    have hline : rowOf? (if line.getLast? = some '\r' then line.dropLast else line) = none := by
      split
      · exact rowOf?_of_idle fun c hc => hidle c (List.dropLast_subset line hc)
      · exact rowOf?_of_idle hidle
    rw [bodyLines_append rest hfeed, readRows_of_idle _ hline]
    exact ih hrows (number + 1)
  | @row row rows leader text feed rest hleader hidle htext hfeed hrest ih =>
    obtain ⟨hrow, hwidth⟩ := hrows row List.mem_cons_self
    obtain ⟨found, hfound, hjoins⟩ := hrow.exists_rowOf? hidle htext
    obtain ⟨hfields, hquotes⟩ := hrow.fields_eq hjoins
    have hlater :=
      ih (fun other hother => hrows other (List.mem_cons_of_mem row hother)) (number + 1)
    rw [hrow.bodyLines_eq rest hleader htext hfeed,
      readRows_of_row hfound hquotes (by rw [hfields, hwidth]) hlater, hfields]

/-- A written table is read back: its columns and its rows in order, whatever blanks, leaders, line
breaks and lines without rows it is written with. -/
theorem read_written {names : List Text} {rows : List (List Text)} {header body : Text}
    (headerLine bodyLine : Nat) (hne : names ≠ []) (hnames : ∀ name ∈ names, IsName name)
    (hrows : ∀ row ∈ rows, IsRow row ∧ row.length = names.length)
    (hheader : JoinsPadded names header) (hbody : WrittenRows rows body) :
    read header body headerLine bodyLine = .ok ⟨names, rows⟩ := by
  have hcolumns := columns_of_joinsPadded hne hnames hheader
  have hnonempty : names.any (·.isEmpty) = false := by
    rw [List.any_eq_false]
    intro name hname
    simpa using (hnames name hname).ne_nil
  rw [read, hcolumns]
  simp only [hnonempty, Bool.false_eq_true, if_false, readRows_written hbody hrows bodyLine]

/-- The header is ` A;<tab>B`, and the body has the lines `// "p;q" ;a\"b`, `--`, `=_; ` and ` `. -/
theorem read_written_sample :
    read [' ', 'A', ';', '\t', 'B']
        (['/', '/', ' ', '"', 'p', ';', 'q', '"', ' ', ';', 'a', '\\', '"', 'b', '\r', '\n'] ++
          ['-', '-', '\n', '=', '_', ';', ' ', '\n', ' ']) 1 2 =
      .ok ⟨[['A'], ['B']], [[['"', 'p', ';', 'q', '"'], ['a', '\\', '"', 'b']], [['_'], []]]⟩ := by
  have hnone : ∀ c ∈ ([] : Text), isBlank c = true := List.forall_mem_nil _
  have hspace : ∀ c ∈ [' '], isBlank c = true := List.forall_mem_singleton.mpr rfl
  have htab : ∀ c ∈ ['\t'], isBlank c = true := List.forall_mem_singleton.mpr rfl
  have hheader : JoinsPadded [['A'], ['B']] [' ', 'A', ';', '\t', 'B'] :=
    ⟨[[' ', 'A'], ['\t', 'B']],
      .cons ⟨[' '], [], hspace, hnone, rfl⟩ (.cons ⟨['\t'], [], htab, hnone, rfl⟩ .nil), rfl⟩
  have hfirst : JoinsPadded [['"', 'p', ';', 'q', '"'], ['a', '\\', '"', 'b']]
      ['"', 'p', ';', 'q', '"', ' ', ';', 'a', '\\', '"', 'b'] :=
    ⟨[['"', 'p', ';', 'q', '"', ' '], ['a', '\\', '"', 'b']],
      .cons ⟨[], [' '], hnone, hspace, rfl⟩ (.cons ⟨[], [], hnone, hnone, rfl⟩ .nil), rfl⟩
  have hsecond : JoinsPadded [['_'], []] ['_', ';', ' '] :=
    ⟨[['_'], [' ']],
      .cons ⟨[], [], hnone, hnone, rfl⟩ (.cons ⟨[], [' '], hnone, hspace, rfl⟩ .nil), rfl⟩
  have hslashes : ∀ c ∈ ['/', '/', ' '], beginsRow c = false := by
    simp only [List.forall_mem_cons]
    exact ⟨rfl, rfl, rfl, List.forall_mem_nil _⟩
  have hdashes : ∀ c ∈ ['-', '-'], beginsRow c = false := by
    simp only [List.forall_mem_cons]
    exact ⟨rfl, rfl, List.forall_mem_nil _⟩
  have hbody := @WrittenRows.row _ _ ['/', '/', ' '] _ ['\r', '\n'] _ (by decide) hslashes hfirst
    (Or.inr rfl) (@WrittenRows.idle _ ['-', '-'] _ (by decide) hdashes
      (@WrittenRows.row _ _ ['='] _ ['\n'] _ (by decide) (List.forall_mem_singleton.mpr rfl) hsecond
        (Or.inl rfl) (@WrittenRows.last [' '] (by decide) (List.forall_mem_singleton.mpr rfl))))
  refine read_written 1 2 (by decide) (by decide) ?_ hheader hbody
  intro row hrow
  rcases List.mem_cons.mp hrow with rfl | hrow
  · exact ⟨⟨by decide, ⟨'"', _, _, rfl, by decide⟩, by decide⟩, rfl⟩
  · obtain rfl := List.mem_singleton.mp hrow
    exact ⟨⟨by decide, ⟨'_', _, _, rfl, by decide⟩, by decide⟩, rfl⟩

end Table

end Stencil
