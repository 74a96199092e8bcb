import Stencil.Proofs.Document.Place
import Stencil.Proofs.Document.Search
import Stencil.Proofs.Expansion.Assembler
import Stencil.Proofs.Table.Fault

/-!
# Faults of a generation

A document that cannot be read, or one of its tables that cannot, ends the generation. A fault of a
row is the fault of the first bad row in the first table that cannot be read. The line that it names
is added up from the line of the body and the lines of the body in front of the row, and it is the
row's line in the document.
-/

namespace Stencil

open Text

/-- The fault is that of a row of a table. -/
def Error.IsOfRow : Error → Prop
  | unmatchedQuote _ | fieldCount _ _ _ => True
  | _ => False

/-- A document that cannot be read is at fault with one of its markers or blocks. -/
theorem not_isOfRow_of_parse {text tag : Text} {fault : Error} (h : parse text tag = .error fault) :
    ¬ fault.IsOfRow := by
  obtain ⟨found, start, -, -, hlocate⟩ := Reading.exists_searches_of_parse h
  have hselects := Block.selects_locate text tag (offsetOf text start)
  rw [hlocate] at hselects
  cases hselects <;> exact id

/-- The first fault of some segments is that of a region with columns whose table cannot be read. -/
theorem Segment.findSome?_fault?_eq_some_iff {segments : List Segment} {fault : Error} :
    segments.findSome? fault? = some fault ↔
      ∃ before region after header, segments = before ++ .tagged region :: after ∧
        (∀ segment ∈ before, segment.fault? = none) ∧ region.directive = .keys header ∧
        Table.read header region.body region.openingLine region.bodyLine = .error fault := by
  rw [List.findSome?_eq_some_iff]
  constructor
  · rintro ⟨before, segment, after, rfl, hsegment, hbefore⟩
    obtain ⟨region, header, rfl, hkeys, hread⟩ := fault?_eq_some_iff.mp hsegment
    exact ⟨before, region, after, header, rfl, hbefore,
      Region.directive_eq_keys_iff.mpr hkeys, hread⟩
  · rintro ⟨before, region, after, header, rfl, hbefore, hdirective, hread⟩
    have hkeys := Region.directive_eq_keys_iff.mp hdirective
    exact ⟨before, _, after, rfl, fault?_eq_some_iff.mpr ⟨region, header, rfl, hkeys, hread⟩,
      hbefore⟩

/-- A generation fails with the fault of reading the document, or with that of the first table that
cannot be read. -/
theorem generate_eq_error_iff {config : Config} {text : Text} {fault : Error} :
    generate config text = .error fault ↔
      parse text config.tag = .error fault ∨
      ∃ before region after header,
        parse text config.tag = .ok (before ++ .tagged region :: after) ∧
        (∀ segment ∈ before, segment.fault? = none) ∧ region.directive = .keys header ∧
        Table.read header region.body region.openingLine region.bodyLine = .error fault := by
  rw [generate_eq_assembled]
  cases hparse : parse text config.tag with
  | error found => simp
  | ok segments =>
    simp only [Except.ok.injEq, reduceCtorEq, false_or, ← Segment.findSome?_fault?_eq_some_iff]
    cases segments.findSome? Segment.fault? <;> simp

/-- A fault of a row names the line on which the row stands in the document. The row is the first
bad one in the first region with columns that cannot be read, and the fault is what is wrong with
this row among these columns. -/
theorem generate_isOfRow {config : Config} {text : Text} {fault : Error}
    (h : generate config text = .error fault) (hrow : fault.IsOfRow) :
    ∃ before region after header front ahead leader row,
      parse text config.tag = .ok (before ++ .tagged region :: after) ∧
      (∀ segment ∈ before, segment.fault? = none) ∧
      region.directive = .keys header ∧
      StandsBehind config.tag text before region front ∧
      Table.IsFirstBad (Table.columns header).length region.body ahead leader row ∧
      Table.RowFault (Table.columns header).length row
        ((front ++ ahead ++ leader).count '\n' + 1) fault := by
  rcases generate_eq_error_iff.mp h with hfault | ⟨before, region, after, header, hparse, hbefore,
    hdirective, hread⟩
  · exact absurd hrow (not_isOfRow_of_parse hfault)
  · obtain ⟨front, hstands, hline⟩ := exists_standsBehind hparse
    have hcolumns : fault ≠ .emptyColumn region.openingLine := by
      rintro rfl
      exact hrow
    obtain ⟨ahead, leader, row, hfirst, hrowFault⟩ :=
      Table.exists_isFirstBad_of_read hread hcolumns
    have hleader : leader.count '\n' = 0 :=
      List.count_eq_zero_of_not_mem fun hmem => hfirst.one_line (List.mem_append_left _ hmem)
    have hcount : region.bodyLine + ahead.count '\n' =
        (front ++ ahead ++ leader).count '\n' + 1 := by
      rw [List.count_append, List.count_append, hleader, hline]
      omega
    rw [hcount] at hrowFault
    exact ⟨before, region, after, header, front, ahead, leader, row, hparse, hbefore, hdirective,
      hstands, hfirst, hrowFault⟩

/-- The marker takes two lines, and the body begins behind it on the second one. -/
theorem generate_isOfRow_inline :
    let text := ['/', '*', '<', 't', 'm', 'p', 'l', '\r', '\n', 'K', 'e', 'y', 's', '=', '"', 'A',
      ';', 'B', '"', '>', '*', '/', '1', ';', '2', '\r', '\n', '\r', '\n', '-', ' ', '3', '\r', '\n',
      '/', '*', '<', '/', 't', 'm', 'p', 'l', '>', '*', '/']
    generate {} text = .error (.fieldCount 4 2 1) ∧
      ∃ before region after header front ahead leader row,
        parse text ['t', 'm', 'p', 'l'] = .ok (before ++ .tagged region :: after) ∧
        (∀ segment ∈ before, segment.fault? = none) ∧
        region.directive = .keys header ∧
        StandsBehind ['t', 'm', 'p', 'l'] text before region front ∧
        Table.IsFirstBad (Table.columns header).length region.body ahead leader row ∧
        Table.RowFault (Table.columns header).length row
          ((front ++ ahead ++ leader).count '\n' + 1) (.fieldCount 4 2 1) := by
  intro text
  have h : generate {} text = .error (.fieldCount 4 2 1) := by decide +kernel
  exact ⟨h, generate_isOfRow h trivial⟩

end Stencil
