import Stencil.Generation.File
import Stencil.Proofs.File.Access
import Stencil.Proofs.File.Tree
import Stencil.Proofs.Generation.Shift

/-!
# Generated files in a tree

Generating touches nothing but its output. Rendering leaves the tree as it is and depends on two
questions only: whether both paths lead to one place, and what the template holds. Once a document
is rendered the output leads somewhere else than the template, or nowhere yet, so that writing it
changes neither answer. An output is current if it holds what would be generated; checking,
previewing and generating all decide this, and generating brings it about.
-/

namespace Stencil

/-- The contents of an output that a template is copied to. -/
def Source.copy (source : Source) (config : Config) : Text :=
  if config.output.bom.writes source.hasBom then bom :: source.content else source.content

namespace FileTree

/-- Whether two paths say the same, or lead to the same place in a tree. -/
def isSame (tree : FileTree) (input output : Path) : Bool :=
  if input.components = output.components then true
  else
    match tree.resolve input, tree.resolve output with
    | .ok input, .ok output => input = output
    | _, _ => false

/-- What rendering a template yields in a tree. -/
def rendering (tree : FileTree) (config : Config) (input output : Path) :
    Noted (Except Error Rendered) :=
  if tree.isSame input output then .silent (.error (.outputConflict output.text))
  else
    match tree.readText input with
    | .error fault => .silent (.error (.file fault))
    | .ok text =>
      match renderText config (Source.ofText input text) with
      | ⟨entries, .error fault⟩ => ⟨entries, .error fault⟩
      | ⟨entries, .ok contents⟩ =>
        ⟨entries ++ [.rendered input.text (Text.byteSize contents)], .ok ⟨input, output, contents⟩⟩

/-- The output holds what would be generated. -/
def IsCurrent (tree : FileTree) (config : Config) (input output : Path) : Prop :=
  ∃ contents, (tree.rendering config input output).value = .ok ⟨input, output, contents⟩ ∧
    tree.readText output = .ok contents

end FileTree

/-! ## Runs on a tree -/

section run

variable (tree : FileTree) (config : Config) (input output : Path)

theorem isSameFile_run :
    (isSameFile input output : StateM FileTree Bool) tree = (tree.isSame input output, tree) := by
  rw [isSameFile, FileTree.isSame]
  split
  · rfl
  · simp only [bind_run, FileAccess.canonical?]
    cases tree.resolve input <;> cases tree.resolve output <;> rfl

theorem readSource_run (path : Path) :
    (readSource path : StateM FileTree _) tree =
      (match tree.readText path with
        | .error fault => .error (.file fault)
        | .ok text => .ok (Source.ofText path text), tree) := by
  rw [readSource, bind_run, readText_run]
  cases tree.readText path <;> rfl

/-- Rendering leaves the tree as it is. -/
theorem renderFile_run :
    (renderFile config input output : StateM FileTree _) tree =
      (tree.rendering config input output, tree) := by
  rw [FileTree.rendering, renderFile, bind_run, isSameFile_run]
  dsimp only
  split
  · rfl
  · rw [bind_run, readSource_run]
    cases tree.readText input with
    | error fault => rfl
    | ok text =>
      dsimp only
      obtain ⟨entries, value⟩ := renderText config (Source.ofText input text)
      cases value <;> rfl

end run

namespace FileTree

variable {tree : FileTree} {config : Config} {input output : Path}

theorem isSame_eq_false_iff : tree.isSame input output = false ↔
    input.components ≠ output.components ∧
      ∀ place, tree.resolve input = .ok place → tree.resolve output ≠ .ok place := by
  rw [isSame]
  split
  · next hcomponents => simp [hcomponents]
  · next hcomponents =>
    cases tree.resolve input <;> cases tree.resolve output <;> simp [hcomponents, eq_comm]

/-- A document is rendered from a template that can be read for an output that is another file. -/
theorem rendering_eq_ok {rendered : Rendered}
    (h : (tree.rendering config input output).value = .ok rendered) :
    tree.isSame input output = false ∧ (∃ text, tree.readText input = .ok text) ∧
      rendered = ⟨input, output, rendered.contents⟩ := by
  rw [rendering] at h
  cases hsame : tree.isSame input output with
  | true => simp [hsame] at h
  | false =>
    cases hread : tree.readText input with
    | error fault => simp [hsame, hread] at h
    | ok text =>
      refine ⟨rfl, ⟨text, rfl⟩, ?_⟩
      simp only [hsame, hread, Bool.false_eq_true, if_false] at h
      cases hrender : renderText config (Source.ofText input text) with
      | mk entries value =>
        cases value with
        | error fault => simp [hrender] at h
        | ok contents =>
          simp only [hrender, Except.ok.injEq] at h
          rw [← h]

theorem rendering_congr {other : FileTree}
    (hsame : other.isSame input output = tree.isSame input output)
    (hread : other.readText input = tree.readText input) :
    other.rendering config input output = tree.rendering config input output := by
  rw [rendering, rendering, hsame, hread]

/-- A template in which nothing can begin a block is copied. -/
theorem rendering_of_not {text : Text} (hsame : tree.isSame input output = false)
    (hread : tree.readText input = .ok text)
    (h : ¬ Marker.openingStart config.tag <:+: (Source.ofText input text).content) :
    (tree.rendering config input output).value =
      .ok ⟨input, output, (Source.ofText input text).copy config⟩ := by
  have hvalue : (generateNoted config (Source.ofText input text).content).value =
      .ok (Source.ofText input text).content := generate_of_not h
  have hrender : (renderText config (Source.ofText input text)).value =
      .ok ((Source.ofText input text).copy config) := by
    simp only [renderText, hvalue, Except.map, Source.copy]
  rw [rendering, hsame, hread]
  dsimp only
  cases hrendered : renderText config (Source.ofText input text) with
  | mk entries value =>
    rw [hrendered] at hrender
    obtain rfl : value = _ := hrender
    rfl

/-- Writing the output of a rendered document changes neither what the template holds nor what it is
rendered to, and from then on the output is current. -/
theorem isCurrent_of_write {contents : Text} {after : FileTree}
    (hrendering : (tree.rendering config input output).value = .ok ⟨input, output, contents⟩)
    (hwrite : tree.write output (.text contents) = .ok after) :
    ∃ location, (tree.resolve output = .ok location ∨ tree.node? location = none) ∧
      tree.CanHold location ∧ after = tree.set location (.file (.text contents)) ∧
      after.resolve output = .ok location ∧ after.readText input = tree.readText input ∧
      after.IsCurrent config input output := by
  obtain ⟨hsame, ⟨text, hread⟩, -⟩ := rendering_eq_ok hrendering
  obtain ⟨hcomponents, hdiffer⟩ := isSame_eq_false_iff.mp hsame
  obtain ⟨place, hresolve, hfile⟩ := readText_eq_ok_iff.mp hread
  obtain ⟨location, hlocation, hhold, hafter, hresolveOutput⟩ := exists_of_write hwrite
  have hne : place ≠ location := by
    rintro rfl
    rcases hlocation with houtput | hmissing
    · exact hdiffer place hresolve houtput
    · simp [hmissing] at hfile
  have hinput : after.readText input = tree.readText input :=
    hafter ▸ readText_set hresolve (.text contents) hhold hne
  have hresolveInput : after.resolve input = .ok place :=
    hafter ▸ resolve_set hresolve (.text contents) hhold (by simp)
  have hsame' : after.isSame input output = false := by
    refine isSame_eq_false_iff.mpr ⟨hcomponents, fun other hother houtput => hne ?_⟩
    rw [hresolveInput] at hother
    rw [hresolveOutput] at houtput
    exact (Except.ok.inj hother).trans (Except.ok.inj houtput).symm
  have hnode : after.node? location = some (.file (.text contents)) :=
    hafter ▸ node?_set_self _ hhold
  refine ⟨location, hlocation, hhold, hafter, hresolveOutput, hinput, contents, ?_, ?_⟩
  · rw [rendering_congr (hsame'.trans hsame.symm) hinput, hrendering]
  · exact readText_eq_ok_iff.mpr ⟨location, hresolveOutput, hnode⟩

end FileTree

/-! ## Generating, checking and previewing -/

section outcome

variable {tree : FileTree} {config : Config} {input output : Path}

theorem toOption_eq_some_iff {ε α : Type} {result : Except ε α} {value : α} :
    result.toOption = some value ↔ result = .ok value := by
  cases result <;> simp [Except.toOption]

/-- If nothing can be rendered, no output is current. -/
theorem FileTree.not_isCurrent_of_error {fault : Error}
    (h : (tree.rendering config input output).value = .error fault) :
    ¬ tree.IsCurrent config input output := by
  rintro ⟨contents, hrendering, -⟩
  rw [h] at hrendering
  exact absurd hrendering (by simp)

theorem FileTree.isCurrent_iff_of_ok {contents : Text}
    (h : (tree.rendering config input output).value = .ok ⟨input, output, contents⟩) :
    tree.IsCurrent config input output ↔ tree.readText output = .ok contents := by
  constructor
  · rintro ⟨found, hrendering, hread⟩
    rw [h] at hrendering
    obtain ⟨-, -, rfl⟩ := Rendered.mk.inj (Except.ok.inj hrendering)
    exact hread
  · exact fun hread => ⟨contents, h, hread⟩

/-- An output that a template is copied to is current if it is the copy. -/
theorem FileTree.isCurrent_of_not_iff (text : Text) (hsame : tree.isSame input output = false)
    (hread : tree.readText input = .ok text)
    (h : ¬ Marker.openingStart config.tag <:+: (Source.ofText input text).content) :
    tree.IsCurrent config input output ↔
      tree.readText output = .ok ((Source.ofText input text).copy config) :=
  isCurrent_iff_of_ok (rendering_of_not hsame hread h)

theorem FileTree.rendering_cases (tree : FileTree) (config : Config) (input output : Path) :
    (∃ entries fault, tree.rendering config input output = ⟨entries, .error fault⟩) ∨
      ∃ entries contents, tree.rendering config input output =
        ⟨entries, .ok ⟨input, output, contents⟩⟩ := by
  cases hrendering : tree.rendering config input output with
  | mk entries value =>
    cases value with
    | error fault => exact Or.inl ⟨entries, fault, rfl⟩
    | ok rendered =>
      have hrendered := (rendering_eq_ok (congrArg Noted.value hrendering)).2.2
      exact Or.inr ⟨entries, rendered.contents, by rw [← hrendered]⟩

variable (tree config input output)

/-- What cannot be rendered is not generated. -/
theorem generateFile_of_error {entries : List Entry} {fault : Error}
    (h : tree.rendering config input output = ⟨entries, .error fault⟩) :
    (generateFile config input output : StateM FileTree _) tree =
      (⟨entries, .error fault⟩, tree) := by
  rw [generateFile, bind_run, renderFile_run, h]
  rfl

/-- What is rendered is written, unless the output holds it already. -/
theorem generateFile_of_ok {entries : List Entry} {contents : Text}
    (h : tree.rendering config input output = ⟨entries, .ok ⟨input, output, contents⟩⟩) :
    (generateFile config input output : StateM FileTree _) tree =
      if (tree.readText output).toOption = some contents then
        (⟨entries ++ [.unchanged output.text], .ok .unchanged⟩, tree)
      else
        match tree.write output (.text contents) with
        | .error fault => (⟨entries, .error (.file fault)⟩, tree)
        | .ok after => (⟨entries ++ [.wrote input.text output.text], .ok .written⟩, after) := by
  rw [generateFile, bind_run, renderFile_run, h]
  dsimp only
  rw [bind_run, writeRendered, bind_run, readText_run]
  dsimp only
  split
  · rfl
  · rw [bind_run]
    simp only [FileAccess.writeText]
    cases tree.write output (.text contents) with
    | error fault => simp [Noted.after, Noted.silent, pure_run]
    | ok after => rfl

/-- A rendered document that the output does not hold is written if it can be. -/
theorem exists_generateFile_eq {contents : Text} {after : FileTree}
    (hrendering : (tree.rendering config input output).value = .ok ⟨input, output, contents⟩)
    (hread : tree.readText output ≠ .ok contents)
    (hwrite : tree.write output (.text contents) = .ok after) :
    ∃ entries, (generateFile config input output : StateM FileTree _) tree =
      (⟨entries, .ok .written⟩, after) := by
  cases hresult : tree.rendering config input output with
  | mk entries value =>
    rw [hresult] at hrendering
    obtain rfl : value = _ := hrendering
    refine ⟨entries ++ [.wrote input.text output.text], ?_⟩
    rw [generateFile_of_ok tree config input output hresult,
      if_neg (mt toOption_eq_some_iff.mp hread), hwrite]

/-- A template in which nothing can begin a block is copied to its output. -/
theorem exists_generateFile_of_not (text contents : Text) (after : FileTree)
    (hsame : tree.isSame input output = false) (hread : tree.readText input = .ok text)
    (h : ¬ Marker.openingStart config.tag <:+: (Source.ofText input text).content)
    (hcopy : (Source.ofText input text).copy config = contents)
    (houtput : (tree.readText output).toOption ≠ some contents)
    (hwrite : tree.write output (.text contents) = .ok after) :
    ∃ entries, (generateFile config input output : StateM FileTree _) tree =
      (⟨entries, .ok .written⟩, after) := by
  subst hcopy
  exact exists_generateFile_eq tree config input output (FileTree.rendering_of_not hsame hread h)
    (mt toOption_eq_some_iff.mpr houtput) hwrite

/-- Generating fails and leaves the tree as it is, or it finds the output current, or it writes what
was rendered. -/
theorem generateFile_cases :
    let result := (generateFile config input output : StateM FileTree _) tree
    ((∃ fault, result.1.value = .error fault) ∧ result.2 = tree ∧
        ¬ tree.IsCurrent config input output) ∨
      (result.1.value = .ok .unchanged ∧ result.2 = tree ∧ tree.IsCurrent config input output) ∨
      (result.1.value = .ok .written ∧ ¬ tree.IsCurrent config input output ∧
        ∃ contents, (tree.rendering config input output).value = .ok ⟨input, output, contents⟩ ∧
          tree.write output (.text contents) = .ok result.2) := by
  obtain ⟨entries, fault, hrendering⟩ | ⟨entries, contents, hrendering⟩ :=
    tree.rendering_cases config input output
  · rw [generateFile_of_error tree config input output hrendering]
    exact Or.inl ⟨⟨fault, rfl⟩, rfl,
      FileTree.not_isCurrent_of_error (congrArg Noted.value hrendering)⟩
  · have hvalue := congrArg Noted.value hrendering
    rw [generateFile_of_ok tree config input output hrendering,
      FileTree.isCurrent_iff_of_ok hvalue]
    by_cases hread : tree.readText output = .ok contents
    · rw [if_pos (toOption_eq_some_iff.mpr hread)]
      exact Or.inr (Or.inl ⟨rfl, rfl, hread⟩)
    · rw [if_neg (mt toOption_eq_some_iff.mp hread)]
      cases hwrite : tree.write output (.text contents) with
      | error fault => exact Or.inl ⟨⟨_, rfl⟩, rfl, hread⟩
      | ok after => exact Or.inr (Or.inr ⟨rfl, hread, contents, hvalue, hwrite⟩)

/-- Generating leaves an output alone exactly if it is current. -/
theorem generateFile_unchanged_iff :
    ((generateFile config input output : StateM FileTree _) tree).1.value = .ok .unchanged ↔
      tree.IsCurrent config input output := by
  obtain ⟨⟨fault, hvalue⟩, -, hcurrent⟩ | ⟨hvalue, -, hcurrent⟩ | ⟨hvalue, hcurrent, -⟩ :=
    generateFile_cases tree config input output <;> simp [hvalue, hcurrent]

/-- What is rendered is compared with what the output holds. -/
theorem checkFile_of_ok {contents : Text}
    (h : (tree.rendering config input output).value = .ok ⟨input, output, contents⟩) :
    ((checkFile config input output : StateM FileTree _) tree).1.value =
      match tree.readText output with
      | .error .notFound => .ok .missing
      | .error fault => .error (.file fault)
      | .ok current =>
        if current = contents then .ok .upToDate else .ok (.stale contents current) := by
  rw [checkFile, bind_run, renderFile_run]
  cases hrendering : tree.rendering config input output with
  | mk entries value =>
    rw [hrendering] at h
    obtain rfl : value = _ := h
    dsimp only
    rw [bind_run, readText_run]
    cases tree.readText output with
    | error fault => cases fault <;> rfl
    | ok current =>
      dsimp only
      split <;> rfl

/-- Checking finds an output up to date exactly if it is current. -/
theorem checkFile_upToDate_iff :
    ((checkFile config input output : StateM FileTree _) tree).1.value = .ok .upToDate ↔
      tree.IsCurrent config input output := by
  obtain ⟨entries, fault, hrendering⟩ | ⟨entries, contents, hrendering⟩ :=
    tree.rendering_cases config input output
  · have hcurrent := FileTree.not_isCurrent_of_error (congrArg Noted.value hrendering)
    rw [checkFile, bind_run, renderFile_run]
    simp [hrendering, hcurrent, pure_run]
  · have hvalue := congrArg Noted.value hrendering
    rw [FileTree.isCurrent_iff_of_ok hvalue, checkFile_of_ok tree config input output hvalue]
    cases tree.readText output with
    | error fault => cases fault <;> simp
    | ok current =>
      dsimp only
      split
      · next heq => simp [heq]
      · next hne => simp [hne]

/-- A preview announces that an output is left alone exactly if it is current. -/
theorem previewFile_unchanged_iff :
    ((previewFile config input output : StateM FileTree _) tree).1.value = .ok .unchanged ↔
      tree.IsCurrent config input output := by
  rw [previewFile, bind_run, renderFile_run]
  obtain ⟨entries, fault, hrendering⟩ | ⟨entries, contents, hrendering⟩ :=
    tree.rendering_cases config input output
  · have hcurrent := FileTree.not_isCurrent_of_error (congrArg Noted.value hrendering)
    simp [hrendering, hcurrent, pure_run]
  · rw [FileTree.isCurrent_iff_of_ok (congrArg Noted.value hrendering), hrendering]
    dsimp only
    rw [bind_run, readText_run]
    dsimp only
    by_cases hread : tree.readText output = .ok contents
    · rw [if_pos (toOption_eq_some_iff.mpr hread)]
      simp [hread, pure_run]
    · rw [if_neg (mt toOption_eq_some_iff.mp hread)]
      simp [hread, pure_run]

/-- After generating an output it is current. -/
theorem isCurrent_generateFile {outcome : WriteOutcome}
    (h : ((generateFile config input output : StateM FileTree _) tree).1.value = .ok outcome) :
    ((generateFile config input output : StateM FileTree _) tree).2.IsCurrent config input
      output := by
  obtain ⟨⟨fault, hvalue⟩, -, -⟩ | ⟨-, htree, hcurrent⟩ | ⟨-, -, contents, hrendering, hwrite⟩ :=
    generateFile_cases tree config input output
  · rw [hvalue] at h
    exact absurd h (by simp)
  · rw [htree]
    exact hcurrent
  · obtain ⟨location, -, -, -, -, -, hcurrent⟩ :=
      FileTree.isCurrent_of_write hrendering hwrite
    exact hcurrent

theorem generateFile_of_isCurrent (h : tree.IsCurrent config input output) :
    ((generateFile config input output : StateM FileTree _) tree).2 = tree := by
  obtain ⟨-, htree, -⟩ | ⟨-, htree, -⟩ | ⟨-, hcurrent, -⟩ :=
    generateFile_cases tree config input output
  · exact htree
  · exact htree
  · exact absurd h hcurrent

/-- Generating touches nothing but its output. If it fails or finds nothing to do, the tree stays as
it is. If it writes, the file that the output leads to, which was there before or was missing, holds
the rendered document, and every other place holds what it held. What the template holds never
changes. -/
theorem generateFile_frame :
    let result := (generateFile config input output : StateM FileTree _) tree
    (match result.1.value with
      | .error _ | .ok .unchanged => result.2 = tree
      | .ok .written => ∃ location contents,
          ((renderFile config input output : StateM FileTree _) tree).1.value =
            .ok ⟨input, output, contents⟩ ∧
          (tree.resolve output = .ok location ∨ tree.node? location = none) ∧
          result.2.resolve output = .ok location ∧
          result.2.node? location = some (.file (.text contents)) ∧
          (∀ other, other ≠ location → result.2.node? other = tree.node? other) ∧
          result.2.workingDirectory = tree.workingDirectory) ∧
      result.2.readText input = tree.readText input := by
  intro result
  obtain ⟨⟨fault, hvalue⟩, htree, -⟩ | ⟨hvalue, htree, -⟩ |
    ⟨hvalue, -, contents, hrendering, hwrite⟩ := generateFile_cases tree config input output
  · simp only [result]
    rw [hvalue, htree]
    exact ⟨rfl, rfl⟩
  · simp only [result]
    rw [hvalue, htree]
    exact ⟨rfl, rfl⟩
  · obtain ⟨location, hlocation, hhold, hafter, hresolve, hinput, -⟩ :=
      FileTree.isCurrent_of_write hrendering hwrite
    simp only [result]
    rw [hvalue]
    refine ⟨⟨location, contents, ?_, hlocation, hresolve, ?_, ?_, ?_⟩, hinput⟩
    · rw [renderFile_run, hrendering]
    · exact hafter ▸ FileTree.node?_set_self _ hhold
    · exact fun other hother => hafter ▸ FileTree.node?_set_of_ne tree _ hother
    · exact hafter ▸ FileTree.workingDirectory_set tree location _

end outcome

end Stencil
