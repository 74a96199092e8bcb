import Stencil.Proofs.CommandLine.Batch
import Stencil.Proofs.Generation.Isolation
import Stencil.Proofs.Generation.Naming

/-!
# Isolated runs

Where no links are in the way and the names of outputs stay in the directories of their templates,
templates whose outputs are files of their own are generated as if each were generated alone: in any
order the attempts, the code of the run and the tree that it leaves are the same, and a template
that fails leaves no trace.
-/

namespace Stencil.CommandLine

open FileTree

variable {environment : Environment} {options : CommonOptions} {tree : FileTree} {config : Config}
  {inputs order : List Path}

/-- Templates are isolated if they are files, links and slashes lead no output astray, and the
outputs differ from each other and from the templates. -/
theorem isolated_of_distinct (hlinks : ∀ location, tree.IsFollowed location)
    (hmarker : '/' ∉ config.output.generatedMarker)
    (hextension : '/' ∉ config.output.defaultExtension)
    (hfiles : ∀ input ∈ inputs, tree.isFile input = true)
    (hdistinct : inputs.Pairwise fun first second => ∀ place,
      tree.Denotes (config.output.outputPath first) place →
        ¬ tree.Denotes (config.output.outputPath second) place)
    (hapart : ∀ input ∈ inputs, ∀ other ∈ inputs, ∀ place,
      tree.Denotes (config.output.outputPath input) place → ¬ tree.Denotes other place) :
    Isolated tree config.output.outputPath inputs where
  input := hfiles
  output input hinput := by
    obtain ⟨place, content, hplace, -⟩ := isFile_iff.mp (hfiles input hinput)
    exact OutputConfig.exists_denotes_outputPath hlinks hmarker hextension hplace
  distinct := hdistinct
  apart := hapart

/-- The code of a run does not depend on the order of the attempts. -/
theorem generateExit_perm {α : Type} {first second : List (Attempt α)} (h : first.Perm second) :
    generateExit first = generateExit second := by
  rw [generateExit, generateExit, failureCount, failureCount, h.countP_eq]

/-- Templates that exist and whose outputs are files of their own are generated in isolation. In any
order the run reports the attempts that would be made alone, ends with the same code and leaves the
same tree. Each output ends up as after a run for its template alone, and what is no output of an
attempt that succeeded stays as it was. -/
theorem generate_isolated (hconfig : configIn environment options tree = .ok config)
    (hlinks : ∀ location target, tree.node? location ≠ some (.link target))
    (hmarker : '/' ∉ config.output.generatedMarker)
    (hextension : '/' ∉ config.output.defaultExtension)
    (hfiles : ∀ input ∈ inputs, tree.isFile input = true)
    (hdistinct : inputs.Pairwise fun first second => ∀ place,
      tree.Denotes (config.output.outputPath first) place →
        ¬ tree.Denotes (config.output.outputPath second) place)
    (hapart : ∀ input ∈ inputs, ∀ other ∈ inputs, ∀ place,
      tree.Denotes (config.output.outputPath input) place → ¬ tree.Denotes other place)
    (horder : order.Perm inputs) :
    let run := fun inputs : List Path =>
      (runCommand environment options (.generate inputs none false) : StateM FileTree _) tree
    let attempt := attemptAlone tree config config.output.outputPath
    ((generateEach config config.output.outputPath order : StateM FileTree _) tree).1 =
        order.map attempt ∧
      (run order).1 = ((display environment options).generateReport false (order.map attempt)).after
        (configLog environment options tree) ∧
      (run order).1.exit = (run inputs).1.exit ∧
      (run order).2.workingDirectory = (run inputs).2.workingDirectory ∧
      (∀ location, (run order).2.node? location = (run inputs).2.node? location) ∧
      (∀ input ∈ inputs, ∀ place, tree.Denotes (config.output.outputPath input) place →
        (run order).2.node? place = (run [input]).2.node? place) ∧
      ∀ place, (∀ input ∈ inputs, tree.Denotes (config.output.outputPath input) place →
          (attempt input).isFailure = true) →
        (run order).2.node? place = tree.node? place := by
  have h : Isolated tree config.output.outputPath inputs :=
    isolated_of_distinct hlinks hmarker hextension hfiles hdistinct hapart
  have hordered := h.perm horder
  obtain ⟨hattempts, houtputs, -⟩ := hordered.generateEach_eq config (.refl tree) fun _ _ _ _ => rfl
  obtain ⟨hgiven, -⟩ := h.generateEach_eq config (.refl tree) fun _ _ _ _ => rfl
  intro run attempt
  simp only [run]
  rw [runCommand_generate hconfig, runCommand_generate hconfig]
  refine ⟨hattempts, ?_, ?_, ?_, h.node?_generateEach_perm config horder, ?_, ?_⟩
  · rw [hattempts]
  · dsimp only [Transcript.exit_after, Display.generateReport]
    rw [hattempts, hgiven]
    exact generateExit_perm (horder.map _)
  · obtain ⟨hframe, -⟩ := generateEach_changes tree config config.output.outputPath order
    obtain ⟨hframe', -⟩ := generateEach_changes tree config config.output.outputPath inputs
    exact hframe.workingDirectory.trans hframe'.workingDirectory.symm
  · intro input hinput place hplace
    rw [houtputs input (horder.mem_iff.mpr hinput) place hplace, runCommand_generate hconfig]
    rfl
  · intro place hfailed
    exact hordered.node?_generateEach_of_isFailure config fun input hinput hplace =>
      hfailed input (horder.mem_iff.mp hinput) hplace

theorem node?_directoryOf_ne_link (files : List (String × String)) (location : Location)
    (target : Path) : (directoryOf files).node? location ≠ some (.link target) := by
  have hlookup : ∀ files : List (String × String),
      (directoryOf files).nodes.lookup location ≠ some (.link target) := by
    intro files
    induction files with
    | nil => simp [directoryOf]
    | cons file rest ih =>
      simp only [directoryOf, List.map_cons, List.lookup_cons] at ih ⊢
      split
      · simp
      · exact ih
  rw [node?]
  split
  · simp
  · exact hlookup files

/-- A template with an unfinished block and one behind it, in either order. -/
theorem generate_isolated_pair :
    let before := directoryOf [("a.cs", "//<tmpl Keys>"), ("b", "n")]
    let inputs : List Path := [⟨"a.cs".toList⟩, ⟨"./b".toList⟩]
    let run := fun inputs => (runCommand bareEnvironment noOptions (.generate inputs none false) :
      StateM FileTree _) before
    (run inputs.reverse).1.exit = (run inputs).1.exit ∧
      ∀ location, (run inputs.reverse).2.node? location = (run inputs).2.node? location := by
  intro before inputs run
  have hconfig : configIn bareEnvironment noOptions before = .ok {} := by cbv
  have hfirst : before.Denotes ⟨"a.cs".toList⟩ ["a.cs".toList] := by
    rw [Denotes]
    cbv
  have hsecond : before.Denotes ⟨"./b".toList⟩ ["b".toList] := by
    rw [Denotes]
    cbv
  have hfirstOutput : before.Denotes (({} : Config).output.outputPath ⟨"a.cs".toList⟩)
      ["a.g.cs".toList] := by
    rw [Denotes]
    cbv
  have hsecondOutput : before.Denotes (({} : Config).output.outputPath ⟨"./b".toList⟩)
      ["b.cs".toList] := by
    rw [Denotes]
    cbv
  have hfiles : ∀ input ∈ inputs, before.isFile input = true := by
    simp only [inputs, List.forall_mem_cons]
    exact ⟨by cbv, by cbv, by simp⟩
  have hdistinct : inputs.Pairwise fun first second => ∀ place,
      before.Denotes (({} : Config).output.outputPath first) place →
        ¬ before.Denotes (({} : Config).output.outputPath second) place :=
    List.pairwise_pair.mpr (hfirstOutput.apart hsecondOutput (by decide))
  have hapart : ∀ input ∈ inputs, ∀ other ∈ inputs, ∀ place,
      before.Denotes (({} : Config).output.outputPath input) place →
        ¬ before.Denotes other place := by
    simp only [inputs, List.forall_mem_cons]
    exact ⟨⟨hfirstOutput.apart hfirst (by decide), hfirstOutput.apart hsecond (by decide), by simp⟩,
      ⟨hsecondOutput.apart hfirst (by decide), hsecondOutput.apart hsecond (by decide), by simp⟩,
      by simp⟩
  obtain ⟨-, -, hexit, -, hnode, -⟩ := generate_isolated hconfig (node?_directoryOf_ne_link _)
    (by decide) (by decide) hfiles hdistinct hapart inputs.reverse_perm
  exact ⟨hexit, hnode⟩

end Stencil.CommandLine
