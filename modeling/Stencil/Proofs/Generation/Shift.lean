import Stencil.Generation.Document
import Stencil.Proofs.Document.Shift

/-!
# Generating behind whole lines

Whole lines in front of a template document in which nothing can begin a block are copied to the
front of what is generated. Nothing else depends on them but the lines that errors name: the rows
of a table are numbered from the line of its body, and the table that is in effect and the copies of
a template do not depend on what was put together before. A document in which nothing at all can
begin a block is copied as a whole.
-/

namespace Stencil

open Text

namespace Table

/-- The number of a table's first line only moves the line of a fault. -/
theorem readRows_add (lines width number : Nat) (rows : List Text) :
    readRows width (lines + number) rows = shiftResult lines id (readRows width number rows) := by
  induction rows generalizing number with
  | nil => rfl
  | cons line rest ih =>
    rw [readRows, readRows, Nat.add_assoc, ih]
    cases rowOf? line with
    | none => rfl
    | some row =>
      simp only
      split
      · rfl
      · split
        · rfl
        · cases readRows width (number + 1) rest <;> rfl

theorem read_add (lines : Nat) (header body : Text) (headerLine bodyLine : Nat) :
    read header body (lines + headerLine) (lines + bodyLine) =
      shiftResult lines id (read header body headerLine bodyLine) := by
  rw [read, read, readRows_add]
  split
  · rfl
  · cases readRows (columns header).length bodyLine (bodyLines body) <;> rfl

end Table

namespace Assembler

/-- The assembler with a text in front of what has been put together. -/
def prepend (front : Text) (assembler : Assembler) : Assembler :=
  { assembler with output := front ++ assembler.output }

/-- A segment is added in the same way behind other text and on a later line. -/
theorem push_shift (lines : Nat) (front : Text) (assembler : Assembler) (segment : Segment) :
    ((assembler.prepend front).push (segment.shift lines)).value =
      shiftResult lines (prepend front) (assembler.push segment).value := by
  cases segment with
  | plain text => simp [push, add, prepend, Segment.shift, Except.map]
  | tagged region =>
    have hdirective : (region.shift lines).directive = region.directive := rfl
    simp only [push, add, Segment.shift, addRegion, hdirective]
    cases region.directive with
    | keys header =>
      simp only [Region.shift, Table.read_add]
      cases Table.read header region.body region.openingLine region.bodyLine <;> rfl
    | ignore => rfl
    | template =>
      cases htable : assembler.table with
      | none => simp [prepend, Except.map, htable]
      | some table => simp [prepend, Except.map, htable, Region.shift]

/-- One step of adding segments. -/
theorem value_pushAll_cons (assembler : Assembler) (segment : Segment) (rest : List Segment) :
    (assembler.pushAll (segment :: rest)).value =
      match (assembler.push segment).value with
      | .error fault => .error fault
      | .ok next => (next.pushAll rest).value := by
  rw [pushAll]
  obtain ⟨entries, value⟩ := assembler.push segment
  cases value <;> rfl

theorem pushAll_shift (lines : Nat) (front : Text) (assembler : Assembler)
    (segments : List Segment) :
    ((assembler.prepend front).pushAll (segments.map (Segment.shift lines))).value =
      shiftResult lines (prepend front) (assembler.pushAll segments).value := by
  induction segments generalizing assembler with
  | nil => rfl
  | cons segment rest ih =>
    rw [List.map_cons, value_pushAll_cons, value_pushAll_cons, push_shift]
    cases (assembler.push segment).value with
    | error fault => rfl
    | ok next => exact ih next

end Assembler

/-- A document that can be read begins with a plain text. -/
theorem Reading.exists_plain {text tag : Text} (h : (ofText text tag).fault = none) :
    ∃ plain rest, (ofText text tag).segments = .plain plain :: rest := by
  rw [ofText] at h ⊢
  cases hlocate : Block.locateFrom text tag (LineTable.ofText text) 0 0 with
  | error fault =>
    rw [ofRest_of_error _ hlocate] at h
    exact absurd h (by simp)
  | ok found =>
    cases found with
    | none => exact ⟨_, _, by rw [ofRest_of_none _ hlocate]⟩
    | some block =>
      obtain ⟨-, hresume⟩ := Block.locateFrom_resume (Nat.zero_le _) hlocate
      exact ⟨_, _, by rw [ofRest_of_some _ hlocate hresume]⟩

/-- Generating is putting together what was read. -/
theorem generate_eq (config : Config) (text : Text) :
    generate config text =
      match (Reading.ofText text config.tag).fault with
      | some fault => .error fault
      | none => ((Assembler.empty config.indexToken).pushAll
          (Reading.ofText text config.tag).segments).value.map (·.output) := by
  rw [generate, generateNoted]
  simp only [Reading.toExcept]
  cases (Reading.ofText text config.tag).fault <;> rfl

/-- A text that could not begin a block is generated as it is. -/
theorem generate_of_not {config : Config} {text : Text}
    (h : ¬ Marker.openingStart config.tag <:+: text) : generate config text = .ok text := by
  rw [generate_eq, Reading.ofText_of_not h]
  rfl

/-- A document without the beginning of an opening tag is left alone, whatever else it holds: it is
one plain text, it is generated as it is and without notes, and no search in it finds a block. -/
theorem generate_untagged {config : Config} {text : Text} (h : ¬ ('<' :: config.tag) <:+: text) :
    parse text config.tag = .ok [.plain text] ∧ generate config text = .ok text ∧
      (generateNoted config text).entries = [] ∧
      ∀ offset, Block.locate text config.tag offset = .ok none := by
  have hread : Reading.ofText text config.tag = ⟨[.plain text], none⟩ := Reading.ofText_of_not h
  refine ⟨?_, generate_of_not h, ?_, fun offset => Block.locateFrom_of_not _ _ _ h⟩
  · rw [parse, hread]
    rfl
  · rw [generateNoted, hread]
    rfl

/-- A closing tag, a tag of another name and comments that do not end begin no block. -/
theorem generate_untagged_comments :
    parse ['<', '/', 't', 'm', 'p', 'l', '>', '/', '*', '<', ' ', 't', 'm', 'p', 'l', '"', '\n',
        '/', '/'] ['t', 'm', 'p', 'l'] =
      .ok [.plain ['<', '/', 't', 'm', 'p', 'l', '>', '/', '*', '<', ' ', 't', 'm', 'p', 'l', '"',
        '\n', '/', '/']] :=
  (@generate_untagged {} _ (by decide)).1

/-- Whole lines in which nothing can begin a block are copied to the output. -/
theorem generate_eq_shiftResult (config : Config) {front : Text} (text : Text)
    (hfront : EndsIn '\n' front) (hmark : ¬ Style.block.mark <:+: front)
    (hopening : ¬ Marker.openingStart config.tag <:+: front) :
    generate config (front ++ text) =
      shiftResult (front.count '\n') (front ++ ·) (generate config text) := by
  rw [generate_eq, generate_eq, Reading.ofText_append text hfront hmark hopening]
  cases hfault : (Reading.ofText text config.tag).fault with
  | some fault => simp [Reading.shift, hfault]
  | none =>
    obtain ⟨plain, rest, hsegments⟩ := Reading.exists_plain hfault
    have hrun := Assembler.pushAll_shift (front.count '\n') front
      (Assembler.empty config.indexToken) (.plain plain :: rest)
    have hfirst : (Assembler.empty config.indexToken).pushAll (Segment.prepend front
        ((Segment.plain plain :: rest).map (Segment.shift (front.count '\n')))) =
      ((Assembler.empty config.indexToken).prepend front).pushAll
        ((Segment.plain plain :: rest).map (Segment.shift (front.count '\n'))) := by
      simp [Segment.prepend, Segment.shift, Assembler.pushAll, Assembler.push, Assembler.add,
        Assembler.prepend, Assembler.empty, Noted.silent, Except.map]
    simp only [Reading.shift, hfault, hsegments, Option.map_none, hfirst, hrun]
    cases ((Assembler.empty config.indexToken).pushAll (.plain plain :: rest)).value <;> rfl

/-- Prepending whole lines that hold no slash-star and no beginning of an opening tag only shifts
the result: the output begins with them, errors name lines farther down, and the segments are the
same but for the first plain text and the lines. -/
theorem generate_append (config : Config) {front : Text} (text : Text)
    (hfront : EndsIn '\n' front) (hmark : ¬ ['/', '*'] <:+: front)
    (hopening : ¬ ('<' :: config.tag) <:+: front) :
    (∀ output, generate config (front ++ text) = .ok (front ++ output) ↔
        generate config text = .ok output) ∧
      (∀ fault, generate config text = .error fault →
        generate config (front ++ text) = .error (fault.shift (front.count '\n'))) ∧
      parse (front ++ text) config.tag = shiftResult (front.count '\n')
        (fun segments =>
          Segment.prepend front (segments.map (Segment.shift (front.count '\n'))))
        (parse text config.tag) := by
  have hgenerate := generate_eq_shiftResult config text hfront hmark hopening
  refine ⟨?_, ?_, ?_⟩
  · intro output
    rw [hgenerate]
    cases generate config text with
    | error fault => simp
    | ok found => simp
  · intro fault h
    rw [hgenerate, h]
    rfl
  · rw [parse, parse, Reading.toExcept, Reading.toExcept,
      Reading.ofText_append text hfront hmark hopening, Reading.shift]
    cases (Reading.ofText text config.tag).fault <;> rfl

/-- A closing tag, a quotation mark and the end of a comment stand in front. -/
theorem generate_append_closing_tag :
    let front := "//</tmpl>\n\"*/\n".toList
    let good := "/*<tmpl Keys=\"A\">*/1/*</tmpl>*/\n// <tmpl>\n<A>\n// </tmpl>\n".toList
    let bad := "/*<tmpl Keys=\"A;B\">*/1\n/*</tmpl>*/".toList
    generate {} (front ++ good) = .ok (front ++ "<1>\n".toList) ∧
      generate {} (front ++ bad) = .error (.fieldCount 3 2 1) ∧
      parse (front ++ bad) "tmpl".toList = .ok [.plain front,
        .tagged ⟨.block, [("Keys".toList, "A;B".toList)], "1\n".toList, 3, 3, 4⟩, .plain []] := by
  intro front good bad
  have hfront : EndsIn '\n' front := by decide +kernel
  have hmark : ¬ ['/', '*'] <:+: front := by decide +kernel
  have hopening : ¬ ('<' :: ({} : Config).tag) <:+: front := by decide +kernel
  obtain ⟨hgood, -, -⟩ := generate_append {} good hfront hmark hopening
  obtain ⟨-, hbad, hparse⟩ := generate_append {} bad hfront hmark hopening
  refine ⟨(hgood _).mpr (by decide +kernel), ?_, ?_⟩
  · have hfault : generate {} bad = .error (.fieldCount 1 2 1) := by decide +kernel
    exact (hbad _ hfault).trans (by decide +kernel)
  · exact hparse.trans (by decide +kernel)

end Stencil
