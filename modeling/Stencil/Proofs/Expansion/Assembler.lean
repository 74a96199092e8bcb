import Stencil.Proofs.Generation.Shift

/-!
# What is put together

An assembler keeps the table in effect and the output so far, and goes on behind a segment that
fails. What it has put together after a run is a function of the segments alone: each of them
contributes a text that depends on it and on the last table that could be read in front of it. One
step is described once, faults included, and runs follow by induction from the last segment.
-/

namespace Stencil

namespace Region

variable {region : Region} {header : Text}

/-- A region is repeated for the rows of a table: it names no columns and is not left out. -/
def IsRepeated (region : Region) : Prop :=
  region.attributes.lookup ['K', 'e', 'y', 's'] = none ∧
    region.attributes.lookup ['I', 'g', 'n', 'o', 'r', 'e'] ≠ some ['t', 'r', 'u', 'e']

instance (region : Region) : Decidable region.IsRepeated :=
  inferInstanceAs (Decidable (_ ∧ _))

/-- A region that names columns holds a table, whatever else it says. -/
theorem directive_eq_keys_iff :
    region.directive = .keys header ↔
      region.attributes.lookup ['K', 'e', 'y', 's'] = some header := by
  rw [directive, keysAttribute]
  cases region.attributes.lookup ['K', 'e', 'y', 's'] with
  | some found => simp
  | none =>
    simp only [reduceCtorEq, iff_false]
    split <;> exact Directive.noConfusion

theorem lookup_eq_none (h : ∀ header, region.directive ≠ .keys header) :
    region.attributes.lookup ['K', 'e', 'y', 's'] = none :=
  Option.eq_none_iff_forall_ne_some.mpr fun header hheader =>
    h header (directive_eq_keys_iff.mpr hheader)

theorem directive_eq_template_iff : region.directive = .template ↔ region.IsRepeated := by
  rw [directive, keysAttribute, ignoreAttribute, IsRepeated]
  cases region.attributes.lookup ['K', 'e', 'y', 's'] with
  | some found => simp
  | none => simp

end Region

namespace Segment

/-- What comes of reading the table of a segment; only a region with columns holds one. -/
def reading? : Segment → Option (Except Error Table)
  | .plain _ => none
  | .tagged region =>
    (region.attributes.lookup ['K', 'e', 'y', 's']).map fun header =>
      Table.read header region.body region.openingLine region.bodyLine

/-- The table that a segment brings into effect. -/
def table? (segment : Segment) : Option Table :=
  match segment.reading? with
  | some (.ok table) => some table
  | _ => none

/-- The fault of the table that a segment holds. -/
def fault? (segment : Segment) : Option Error :=
  match segment.reading? with
  | some (.error fault) => some fault
  | _ => none

/-- What a segment adds to the output while a table is in effect, or none is. -/
def contribution (indexToken : Text) (table : Option Table) : Segment → Text
  | .plain text => text
  | .tagged region =>
    if region.IsRepeated then table.elim [] (expand · region.body indexToken) else []

theorem fault?_eq_some_iff {segment : Segment} {fault : Error} :
    segment.fault? = some fault ↔ ∃ region header, segment = .tagged region ∧
      region.attributes.lookup ['K', 'e', 'y', 's'] = some header ∧
      Table.read header region.body region.openingLine region.bodyLine = .error fault := by
  cases segment with
  | plain text => simp [fault?, reading?]
  | tagged region =>
    cases hkeys : region.attributes.lookup ['K', 'e', 'y', 's'] with
    | some header =>
      cases hread : Table.read header region.body region.openingLine region.bodyLine <;>
        simp [fault?, reading?, hkeys, hread]
    | none => simp [fault?, reading?, hkeys]

/-- A segment holds the table of its directive, if that is one. -/
theorem reading?_tagged (region : Region) :
    (tagged region).reading? =
      match region.directive with
      | .keys header => some (Table.read header region.body region.openingLine region.bodyLine)
      | .ignore | .template => none := by
  cases hdirective : region.directive with
  | keys header => rw [reading?, Region.directive_eq_keys_iff.mp hdirective, Option.map_some]
  | ignore => rw [reading?, Region.lookup_eq_none (by simp [hdirective]), Option.map_none]
  | template => rw [reading?, Region.lookup_eq_none (by simp [hdirective]), Option.map_none]

/-- A segment contributes what its directive says, if a table is in effect. -/
theorem contribution_tagged (indexToken : Text) (table : Option Table) (region : Region) :
    (tagged region).contribution indexToken table =
      match region.directive, table with
      | .template, some table => expand table region.body indexToken
      | _, _ => [] := by
  simp only [contribution, ← Region.directive_eq_template_iff]
  cases region.directive with
  | template => cases table <;> rfl
  | keys => rfl
  | ignore => rfl

end Segment

/-- The table in effect behind some segments: that of the last of them whose table can be read. -/
def tableAfter (segments : List Segment) : Option Table :=
  (segments.filterMap Segment.table?).getLast?

/-- The output of some segments: what each of them adds behind those in front of it. -/
def assembled (indexToken : Text) (segments : List Segment) : Text :=
  (segments.mapIdx fun index segment =>
    segment.contribution indexToken (tableAfter (segments.take index))).flatten

theorem tableAfter_concat (before : List Segment) (segment : Segment) :
    tableAfter (before ++ [segment]) = segment.table?.or (tableAfter before) := by
  rw [tableAfter, List.filterMap_append, List.getLast?_append]
  cases h : segment.table? <;> simp [h, tableAfter]

theorem assembled_concat (indexToken : Text) (before : List Segment) (segment : Segment) :
    assembled indexToken (before ++ [segment]) =
      assembled indexToken before ++ segment.contribution indexToken (tableAfter before) := by
  have hbefore : (before.mapIdx fun index segment' =>
      segment'.contribution indexToken (tableAfter ((before ++ [segment]).take index))) =
      before.mapIdx fun index segment' =>
        segment'.contribution indexToken (tableAfter (before.take index)) := by
    rw [List.mapIdx_eq_mapIdx_iff]
    intro index hindex
    rw [List.take_append_of_le_length (Nat.le_of_lt hindex)]
  rw [assembled, List.mapIdx_concat, hbefore, List.flatten_append, List.take_left]
  simp [assembled]

namespace Assembler

/-- The assembler after one more segment, whether or not that fails. -/
def added (assembler : Assembler) (segment : Segment) : Assembler := (assembler.add segment).2

/-- The assembler after some segments, whatever comes of each of them. -/
def addEach (assembler : Assembler) (segments : List Segment) : Assembler :=
  segments.foldl added assembler

/-- A segment fails with the fault of its table and for no other reason. -/
theorem value_add (assembler : Assembler) (segment : Segment) :
    (assembler.add segment).1.value =
      match segment.fault? with
      | some fault => .error fault
      | none => .ok () := by
  cases segment with
  | plain text => rfl
  | tagged region =>
    rw [add, addRegion, Segment.fault?, Segment.reading?_tagged]
    cases region.directive with
    | keys header =>
      simp only
      cases Table.read header region.body region.openingLine region.bodyLine <;> rfl
    | ignore => rfl
    | template => cases assembler.table <;> rfl

/-- A segment replaces the table by its own, if that can be read, and adds its contribution. -/
theorem added_eq (assembler : Assembler) (segment : Segment) :
    assembler.added segment =
      { assembler with
        table := segment.table?.or assembler.table
        output :=
          assembler.output ++ segment.contribution assembler.indexToken assembler.table } := by
  obtain ⟨indexToken, table, output⟩ := assembler
  cases segment with
  | plain text => rfl
  | tagged region =>
    simp only [Segment.table?, Segment.reading?_tagged, Segment.contribution_tagged, added, add,
      addRegion]
    cases region.directive with
    | keys header =>
      simp only
      cases Table.read header region.body region.openingLine region.bodyLine <;> simp
    | ignore => simp
    | template => cases table <;> simp

/-- A table that cannot be read leaves no trace. -/
theorem added_of_fault {assembler : Assembler} {segment : Segment} {fault : Error}
    (h : segment.fault? = some fault) : assembler.added segment = assembler := by
  obtain ⟨region, header, rfl, hkeys, hread⟩ := Segment.fault?_eq_some_iff.mp h
  simp only [added, add, addRegion, Region.directive_eq_keys_iff.mpr hkeys, hread]

/-- After a run the assembler holds the last table that could be read and what the segments add. -/
theorem addEach_empty (indexToken : Text) (segments : List Segment) :
    (empty indexToken).addEach segments =
      ⟨indexToken, tableAfter segments, assembled indexToken segments⟩ := by
  induction segments using List.reverseRecOn with
  | nil => rfl
  | append_singleton before segment ih =>
    rw [addEach, List.foldl_concat, ← addEach, ih, added_eq, tableAfter_concat,
      assembled_concat]

/-- Segments that fail leave no trace in a run. -/
theorem addEach_filter (assembler : Assembler) (segments : List Segment) :
    assembler.addEach (segments.filter (·.fault?.isNone)) = assembler.addEach segments := by
  induction segments generalizing assembler with
  | nil => rfl
  | cons segment rest ih =>
    cases hfault : segment.fault? with
    | none => simpa [addEach, hfault] using ih (assembler.added segment)
    | some fault =>
      have hskip : assembler.added segment = assembler := added_of_fault hfault
      simpa [addEach, hfault, hskip] using ih assembler

theorem value_push (assembler : Assembler) (segment : Segment) :
    (assembler.push segment).value =
      match segment.fault? with
      | some fault => .error fault
      | none => .ok (assembler.added segment) := by
  have hvalue : (assembler.push segment).value =
      (assembler.add segment).1.value.map fun _ => assembler.added segment := rfl
  rw [hvalue, value_add]
  cases segment.fault? <;> rfl

/-- A run that ends at the first fault gives that fault, or what the whole run puts together. -/
theorem value_pushAll (assembler : Assembler) (segments : List Segment) :
    (assembler.pushAll segments).value =
      match segments.findSome? Segment.fault? with
      | some fault => .error fault
      | none => .ok (assembler.addEach segments) := by
  induction segments generalizing assembler with
  | nil => rfl
  | cons segment rest ih =>
    rw [value_pushAll_cons, value_push, List.findSome?_cons]
    cases segment.fault? with
    | some fault => rfl
    | none => exact ih (assembler.added segment)

end Assembler

/-- A document generates what its segments put together, unless it cannot be read or one of its
tables cannot. -/
theorem generate_eq_assembled (config : Config) (text : Text) :
    generate config text =
      match parse text config.tag with
      | .error fault => .error fault
      | .ok segments =>
        match segments.findSome? Segment.fault? with
        | some fault => .error fault
        | none => .ok (assembled config.indexToken segments) := by
  rw [generate_eq, parse, Reading.toExcept]
  cases (Reading.ofText text config.tag).fault with
  | some fault => rfl
  | none =>
    simp only [Assembler.value_pushAll, Assembler.addEach_empty]
    cases (Reading.ofText text config.tag).segments.findSome? Segment.fault? <;> rfl

/-- An assembler computes what its segments mean, as the attributes of its regions tell them apart.
A segment fails exactly if it is a region with columns whose table cannot be read; the table in
effect is the last one that could be read; the output is what the segments add, each with the table
in front of it; segments that fail might as well be left out; and a document generates this output
unless it cannot be read or one of its tables cannot. -/
theorem assembler_eq_assembled (config : Config) :
    let start := Assembler.empty config.indexToken
    (∀ before segment fault, ((start.addEach before).add segment).1.value = .error fault ↔
        ∃ region header, segment = .tagged region ∧
          region.attributes.lookup ['K', 'e', 'y', 's'] = some header ∧
          Table.read header region.body region.openingLine region.bodyLine = .error fault) ∧
      (∀ segments, (start.addEach segments).table = tableAfter segments) ∧
      (∀ segments, (start.addEach segments).output = assembled config.indexToken segments) ∧
      (∀ segments,
        start.addEach (segments.filter (·.fault?.isNone)) = start.addEach segments) ∧
      ∀ text, generate config text =
        match parse text config.tag with
        | .error fault => .error fault
        | .ok segments =>
          match segments.findSome? Segment.fault? with
          | some fault => .error fault
          | none => .ok (assembled config.indexToken segments) := by
  intro start
  refine ⟨?_, ?_, ?_, ?_, ?_⟩
  · intro before segment fault
    rw [Assembler.value_add, ← Segment.fault?_eq_some_iff]
    cases segment.fault? <;> simp
  · intro segments
    rw [Assembler.addEach_empty]
  · intro segments
    rw [Assembler.addEach_empty]
  · intro segments
    exact Assembler.addEach_filter start segments
  · exact generate_eq_assembled config

/-- A template in front of the table is skipped. The table is loaded though its region is marked to
be left out as well, and stays in effect behind one that cannot be read and a region that is left
out; another template is repeated for its rows. -/
theorem assembler_eq_assembled_mixed :
    let loaded : Region := ⟨.line,
      [("Ignore".toList, "true".toList), ("Keys".toList, "A".toList)], "1\n2".toList, 4, 5, 7⟩
    let failing : Region := ⟨.line, [("Keys".toList, "A;B".toList)], "3".toList, 8, 9, 10⟩
    let ignored : Region := ⟨.line, [("Ignore".toList, "true".toList)], "A".toList, 11, 12, 13⟩
    let repeated : Region := ⟨.line, [("Ignore".toList, "no".toList)], "<A>".toList, 14, 15, 16⟩
    let before : List Segment := [.tagged repeated, .plain "x".toList, .tagged loaded]
    let behind : List Segment := [.tagged ignored, .plain "y".toList, .tagged repeated]
    let start := Assembler.empty "i_".toList
    let run := start.addEach (before ++ .tagged failing :: behind)
    ((start.addEach before).add (.tagged failing)).1.value = .error (.fieldCount 9 2 1) ∧
      run = start.addEach (before ++ behind) ∧
      run.table = some ⟨["A".toList], [["1".toList], ["2".toList]]⟩ ∧
      run.output = "xy<1><2>".toList ∧
      generate {} "/*<tmpl Keys=\"A\">*/1/*</tmpl>*/x\n/*<tmpl Keys=\"A;B\">*/3/*</tmpl>*/".toList =
        .error (.fieldCount 2 2 1) := by
  intro loaded failing ignored repeated before behind start run
  obtain ⟨hvalue, htable, houtput, hfilter, hgenerate⟩ := assembler_eq_assembled {}
  refine ⟨?_, ?_, ?_, ?_, ?_⟩
  · exact (hvalue _ _ _).mpr ⟨failing, "A;B".toList, rfl, by decide +kernel, by decide +kernel⟩
  · have hkept : (before ++ .tagged failing :: behind).filter (·.fault?.isNone) =
        before ++ behind := by decide +kernel
    rw [← hkept]
    exact (hfilter _).symm
  · exact (htable _).trans (by decide +kernel)
  · exact (houtput _).trans (by decide +kernel)
  · exact (hgenerate _).trans (by decide +kernel)

end Stencil
