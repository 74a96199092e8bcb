import Stencil.Proofs.Document.Partition
import Stencil.Proofs.Expansion.Assembler
import Stencil.Proofs.Table.Fault

/-!
# Where characters come from

Each character that is put together stands in a segment, or it is a digit of a row's number. A copy
of a template has the characters of the template, of the fields and of the number, and a field is a
part of a line of its table. So a property of characters that the digits have passes from a document
to what it generates.
-/

namespace Stencil

open Text

variable {p : Char → Prop}

/-! ## Copies of a template -/

theorem forall_replaceFrom {word replacement text : Text} (units : Units Char)
    (nonempty : word ≠ []) (copied search : Nat) (hreplacement : ∀ c ∈ replacement, p c)
    (htext : ∀ c ∈ text, p c) :
    ∀ c ∈ units.replaceFrom word replacement text nonempty copied search, p c := by
  fun_induction Units.replaceFrom units word replacement text nonempty copied search with
  | case1 copied search hnone => exact fun c hc => htext c (List.mem_of_mem_drop hc)
  | case2 copied search distance hfound start stop hfree ih =>
    refine List.forall_mem_append.mpr ⟨List.forall_mem_append.mpr ⟨?_, hreplacement⟩, ih⟩
    exact fun c hc => htext c (List.mem_of_mem_take (List.mem_of_mem_drop hc))
  | case3 copied search distance hfound start stop hfree further ih => exact ih

theorem forall_replaceWord {replacement text : Text} (word : Text)
    (hreplacement : ∀ c ∈ replacement, p c) (htext : ∀ c ∈ text, p c) :
    ∀ c ∈ replaceWord text word replacement, p c := by
  rw [replaceWord, Units.replace]
  split
  · next hword => exact forall_replaceFrom Units.characters hword 0 0 hreplacement htext
  · exact htext

theorem forall_expandRow {template : Text} {row : List Text} (header : List Text)
    (indexToken : Text) (index : Nat) (hdigit : ∀ c, c.isDigit = true → p c)
    (htemplate : ∀ c ∈ template, p c) (hrow : ∀ field ∈ row, ∀ c ∈ field, p c) :
    ∀ c ∈ expandRow header indexToken template index row, p c := by
  have hcolumns : ∀ columns : List (Text × Text), (∀ column ∈ columns, ∀ c ∈ column.2, p c) →
      ∀ text : Text, (∀ c ∈ text, p c) →
      ∀ c ∈ columns.foldl (fun text column => replaceWord text column.1 column.2) text, p c := by
    intro columns hcolumns
    induction columns with
    | nil => exact fun text htext => htext
    | cons column columns ih =>
      intro text htext
      obtain ⟨hcolumn, hrest⟩ := List.forall_mem_cons.mp hcolumns
      exact ih hrest _ (forall_replaceWord column.1 hcolumn htext)
  refine forall_replaceWord indexToken ?_ (hcolumns _ ?_ template htemplate)
  · intro c hc
    exact hdigit c (Nat.isDigit_of_mem_toDigits (by decide) (by decide) hc)
  · intro column hcolumn
    exact hrow column.2 (List.of_mem_zip hcolumn).2

theorem forall_expand {table : Table} {template : Text} (indexToken : Text)
    (hdigit : ∀ c, c.isDigit = true → p c) (htemplate : ∀ c ∈ template, p c)
    (htable : ∀ row ∈ table.rows, ∀ field ∈ row, ∀ c ∈ field, p c) :
    ∀ c ∈ expand table template indexToken, p c := by
  intro c hc
  obtain ⟨copy, hcopy, hmem⟩ := List.mem_flatten.mp hc
  obtain ⟨index, hindex, rfl⟩ := List.mem_mapIdx.mp hcopy
  exact forall_expandRow table.header indexToken index hdigit htemplate
    (htable _ (List.getElem_mem hindex)) c hmem

/-! ## Fields of a table -/

namespace Table

theorem subset_of_mem_cutFields {quoted : Bool} {items : List (Char × Bool)} {piece : Text}
    (h : piece ∈ cutFields quoted items) : piece ⊆ items.map (·.1) := by
  fun_induction cutFields quoted items generalizing piece with
  | case1 quoted =>
    obtain rfl : piece = [] := by simpa using h
    exact List.nil_subset _
  | case2 quoted c rest ih => exact subset_of_mem_glue h fun other hother => ih hother
  | case3 quoted c isMark rest hmark hcut ih =>
    rcases List.mem_cons.mp h with rfl | hmem
    · exact List.nil_subset _
    · exact List.subset_cons_of_subset c (ih hmem)
  | case4 quoted c isMark rest hmark hcut ih =>
    exact subset_of_mem_glue h fun other hother => ih hother

/-- A field is a part of its row. -/
theorem subset_of_mem_fields {row field : Text} (h : field ∈ fields row) : field ⊆ row := by
  rw [fields_eq_cutFields] at h
  obtain ⟨piece, hpiece, rfl⟩ := List.mem_map.mp h
  have hrow := subset_of_mem_cutFields hpiece
  rw [map_fst_marked] at hrow
  obtain ⟨tail, hsplit, -⟩ := exists_eq_trim_append isBlank piece
  intro c hc
  apply hrow
  rw [hsplit]
  exact List.mem_append_left _ (List.mem_append_right _ hc)

/-- The fields of a table are parts of its body. -/
theorem subset_of_read {header body : Text} {headerLine bodyLine : Nat} {table : Table}
    (h : read header body headerLine bodyLine = .ok table) {row : List Text}
    (hrow : row ∈ table.rows) {field : Text} (hfield : field ∈ row) : field ⊆ body := by
  rw [read] at h
  split at h
  · exact absurd h (by simp)
  · cases hrows : readRows (columns header).length bodyLine (bodyLines body) with
    | error fault => simp [hrows] at h
    | ok rows =>
      rw [hrows] at h
      obtain rfl := Except.ok.inj h
      obtain ⟨-, rfl⟩ := readRows_eq_ok_iff.mp hrows
      obtain ⟨text, htexts, rfl⟩ := List.mem_map.mp hrow
      obtain ⟨line, hline, htext⟩ := List.mem_filterMap.mp htexts
      obtain ⟨before, after, hlines⟩ := List.append_of_mem hline
      obtain ⟨ahead, rest, rfl, -⟩ := exists_ahead_of_bodyLines hlines
      obtain ⟨leader, rfl, -⟩ := exists_leader_of_rowOf? htext
      intro c hc
      have hmem : c ∈ leader ++ text := List.mem_append_right _ (subset_of_mem_fields hfield hc)
      exact List.mem_append_left _ (List.mem_append_right _ hmem)

end Table

/-! ## Documents -/

namespace Segment

/-- What of a document stands in a segment. -/
def text : Segment → Text
  | .plain text => text
  | .tagged region => region.body

/-- The fields of a table stand in its segment. -/
theorem subset_of_table? {segment : Segment} {table : Table} (h : segment.table? = some table)
    {row : List Text} (hrow : row ∈ table.rows) {field : Text} (hfield : field ∈ row) :
    field ⊆ segment.text := by
  cases segment with
  | plain text => exact absurd h (by simp [table?, reading?])
  | tagged region =>
    cases hkeys : region.attributes.lookup ['K', 'e', 'y', 's'] with
    | none => simp [table?, reading?, hkeys] at h
    | some header =>
      cases hread : Table.read header region.body region.openingLine region.bodyLine with
      | error fault => simp [table?, reading?, hkeys, hread] at h
      | ok found =>
        obtain rfl : found = table := by simpa [table?, reading?, hkeys, hread] using h
        exact Table.subset_of_read hread hrow hfield

end Segment

theorem forall_contribution {segment : Segment} {table : Option Table} (indexToken : Text)
    (hdigit : ∀ c, c.isDigit = true → p c) (hsegment : ∀ c ∈ segment.text, p c)
    (htable : ∀ found ∈ table, ∀ row ∈ found.rows, ∀ field ∈ row, ∀ c ∈ field, p c) :
    ∀ c ∈ segment.contribution indexToken table, p c := by
  cases segment with
  | plain text => exact hsegment
  | tagged region =>
    simp only [Segment.contribution]
    split
    · cases table with
      | none => exact List.forall_mem_nil _
      | some found => exact forall_expand indexToken hdigit hsegment (htable found rfl)
    · exact List.forall_mem_nil _

/-- What some segments put together has the characters of these segments, and digits. -/
theorem forall_assembled (indexToken : Text) {segments : List Segment}
    (hdigit : ∀ c, c.isDigit = true → p c) (h : ∀ segment ∈ segments, ∀ c ∈ segment.text, p c) :
    ∀ c ∈ assembled indexToken segments, p c := by
  induction segments using List.reverseRecOn with
  | nil => exact List.forall_mem_nil _
  | append_singleton before segment ih =>
    obtain ⟨hbefore, hsegment⟩ := List.forall_mem_append.mp h
    rw [assembled_concat]
    refine List.forall_mem_append.mpr ⟨ih hbefore, forall_contribution indexToken hdigit
      (List.forall_mem_singleton.mp hsegment) ?_⟩
    intro table htable row hrow field hfield c hc
    obtain ⟨source, hsource, hread⟩ := List.mem_filterMap.mp (List.mem_of_getLast? htable)
    exact hbefore source hsource c (Segment.subset_of_table? hread hrow hfield hc)

/-- The segments of a document are parts of it. -/
theorem Composes.subset {tag text : Text} {segments : List Segment} (h : Composes tag text segments) :
    ∀ segment ∈ segments, segment.text ⊆ text := by
  induction h with
  | plain text => exact List.forall_mem_singleton.mpr (List.Subset.refl _)
  | @tagged before rest opening closing region segments hopening hclosing hrest ih =>
    refine List.forall_mem_cons.mpr ⟨?_, List.forall_mem_cons.mpr ⟨?_, ?_⟩⟩
    · intro c hc
      have hmem : c ∈ before := hc
      simp [hmem]
    · intro c hc
      have hmem : c ∈ region.body := hc
      simp [hmem]
    · intro segment hsegment c hc
      exact List.mem_append_right _ (ih segment hsegment hc)

/-- A generated document has the characters of its template document, and digits. -/
theorem forall_generate {config : Config} {text output : Text}
    (h : generate config text = .ok output) (hdigit : ∀ c, c.isDigit = true → p c)
    (htext : ∀ c ∈ text, p c) : ∀ c ∈ output, p c := by
  rw [generate_eq_assembled] at h
  cases hparse : parse text config.tag with
  | error fault => simp [hparse] at h
  | ok segments =>
    rw [hparse] at h
    simp only at h
    split at h
    · exact absurd h (by simp)
    · obtain rfl := Except.ok.inj h
      have hsubset := (composes_of_parse hparse).subset
      exact forall_assembled config.indexToken hdigit fun segment hsegment c hc =>
        htext c (hsubset segment hsegment hc)

end Stencil
