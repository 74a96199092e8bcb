import Mathlib
import Stencil.Proofs.CommandLine.Run
import Stencil.Proofs.Generation.Batch

/-!
# Commands for batches

Generating a list of templates changes a file only if an attempt wrote it as its output, which is
never its own template but may be another template of the list, or the output of one. If no attempt
does that, then after a batch without failures checking the same list finds everything up to date.
-/

namespace Stencil

open FileTree

/-! ## Exit codes -/

theorem failureCount_eq_zero_iff {α : Type} {attempts : List (Attempt α)} :
    failureCount attempts = 0 ↔ ∀ attempt ∈ attempts, attempt.isFailure = false := by
  rw [failureCount, List.countP_eq_zero]
  simp only [Bool.not_eq_true]

/-- Generating ends with the code 0 exactly if no attempt failed. -/
theorem generateExit_eq_zero_iff {α : Type} {attempts : List (Attempt α)} :
    generateExit attempts = 0 ↔ ∀ attempt ∈ attempts, attempt.isFailure = false := by
  rw [← failureCount_eq_zero_iff, generateExit]
  split <;> omega

/-- No output is out of date exactly if each one that could be compared is up to date. -/
theorem outdatedCount_eq_zero_iff {attempts : List (Attempt CheckOutcome)} :
    outdatedCount attempts = 0 ↔
      ∀ attempt ∈ attempts, ∀ outcome, attempt.outcome = .ok outcome → outcome = .upToDate := by
  rw [outdatedCount, List.countP_eq_zero]
  constructor
  · intro hcurrent attempt hattempt outcome houtcome
    have hchecked : ⟨attempt.input, attempt.output, outcome⟩ ∈ checkedOf attempts :=
      List.mem_filterMap.mpr ⟨attempt, hattempt, by rw [houtcome]⟩
    simpa [CheckOutcome.isOk] using hcurrent _ hchecked
  · intro hcurrent checked hchecked
    obtain ⟨attempt, hattempt, hfound⟩ := List.mem_filterMap.mp hchecked
    split at hfound
    · exact absurd hfound (by simp)
    · next outcome houtcome =>
      obtain rfl := Option.some.inj hfound
      simp [CheckOutcome.isOk, hcurrent attempt hattempt outcome houtcome]

/-- A failure decides the code of checking, and after it an output that is out of date. -/
theorem checkExit_iff (attempts : List (Attempt CheckOutcome)) :
    (checkExit attempts = 2 ↔ failureCount attempts ≠ 0) ∧
      (checkExit attempts = 1 ↔ failureCount attempts = 0 ∧ outdatedCount attempts ≠ 0) ∧
      (checkExit attempts = 0 ↔ failureCount attempts = 0 ∧ outdatedCount attempts = 0) := by
  rw [checkExit]
  split
  · omega
  · split <;> omega

/-- Checking ends with the code 0 exactly if all outputs are up to date. -/
theorem checkExit_eq_zero_iff {attempts : List (Attempt CheckOutcome)} :
    checkExit attempts = 0 ↔ ∀ attempt ∈ attempts, attempt.outcome = .ok .upToDate := by
  rw [(checkExit_iff attempts).2.2, failureCount_eq_zero_iff, outdatedCount_eq_zero_iff]
  constructor
  · rintro ⟨hsuccess, hcurrent⟩ attempt hattempt
    obtain ⟨outcome, houtcome⟩ := Attempt.isFailure_eq_false_iff.mp (hsuccess attempt hattempt)
    rw [houtcome, hcurrent attempt hattempt outcome houtcome]
  · intro hall
    refine ⟨fun attempt hattempt =>
      Attempt.isFailure_eq_false_iff.mpr ⟨_, hall attempt hattempt⟩, ?_⟩
    intro attempt hattempt outcome houtcome
    exact Except.ok.inj (houtcome.symm.trans (hall attempt hattempt))

namespace CommandLine

variable {environment : Environment} {options : CommonOptions} {tree : FileTree} {config : Config}

/-! ## Runs -/

/-- Generating a list of templates makes an attempt at each of them. -/
theorem runCommand_generate (hconfig : configIn environment options tree = .ok config)
    (inputs : List Path) :
    let batch := (generateEach config config.output.outputPath inputs : StateM FileTree _) tree
    (runCommand environment options (.generate inputs none false) : StateM FileTree _) tree =
      (((display environment options).generateReport false batch.1).after
        (configLog environment options tree), batch.2) :=
  runCommand_of_config rfl hconfig

/-- Checking a list of templates makes an attempt at each of them in the same tree. -/
theorem runCommand_check_run (hconfig : configIn environment options tree = .ok config)
    (inputs : List Path) (diff : Bool) (format : ReportFormat) :
    let attempts := inputs.map fun input => Attempt.mk input (config.output.outputPath input)
      ((checkFile config input (config.output.outputPath input) : StateM FileTree _) tree).1
    (runCommand environment options (.check inputs diff format) : StateM FileTree _) tree =
      (((display environment options).checkReport diff format attempts).after
        (configLog environment options tree), tree) := by
  have hrun :
      (runCommand environment options (.check inputs diff format) : StateM FileTree _) tree =
        (((display environment options).checkReport diff format
          ((checkEach config inputs : StateM FileTree _) tree).1).after
            (configLog environment options tree),
          ((checkEach config inputs : StateM FileTree _) tree).2) :=
    runCommand_of_config rfl hconfig
  rwa [checkEach_run] at hrun

/-- Checking a list of templates ends with the code 0 exactly if all their outputs are current, and
changes nothing. -/
theorem runCommand_check (hconfig : configIn environment options tree = .ok config)
    (inputs : List Path) (diff : Bool) (format : ReportFormat) :
    let result := (runCommand environment options (.check inputs diff format) :
      StateM FileTree _) tree
    (result.1.exit = 0 ↔
        ∀ input ∈ inputs, tree.IsCurrent config input (config.output.outputPath input)) ∧
      result.2 = tree := by
  intro result
  simp only [result]
  rw [runCommand_check_run hconfig]
  refine ⟨?_, rfl⟩
  dsimp only [Transcript.exit_after, Display.checkReport]
  rw [checkExit_eq_zero_iff, List.forall_mem_map]
  simp only [Attempt.outcome, checkFile_upToDate_iff]

/-- Every template of a batch is generated, which leads from one tree to another. -/
def Generates (config : Config) (inputs : List Path) (tree after : FileTree) : Prop :=
  ∃ attempts, (generateEach config config.output.outputPath inputs : StateM FileTree _) tree =
    (attempts, after) ∧ ∀ attempt ∈ attempts, attempt.isFailure = false

namespace Generates

theorem nil (config : Config) (tree : FileTree) : Generates config [] tree tree :=
  ⟨[], rfl, by simp⟩

theorem cons {input : Path} {rest : List Path} {middle after : FileTree} {outcome : WriteOutcome}
    (hfirst : ∃ entries, (generateFile config input (config.output.outputPath input) :
      StateM FileTree _) tree = (⟨entries, .ok outcome⟩, middle))
    (hrest : Generates config rest middle after) : Generates config (input :: rest) tree after := by
  obtain ⟨entries, hfirst⟩ := hfirst
  obtain ⟨attempts, hattempts, hsuccess⟩ := hrest
  refine ⟨⟨input, config.output.outputPath input, ⟨entries, .ok outcome⟩⟩ :: attempts, ?_, ?_⟩
  · rw [generateEach_cons, hfirst]
    dsimp only
    rw [hattempts]
  · intro attempt hattempt
    rcases List.mem_cons.mp hattempt with rfl | hattempt
    · rfl
    · exact hsuccess attempt hattempt

/-- Such a batch ends with the code 0. -/
theorem run {inputs : List Path} {after : FileTree} (h : Generates config inputs tree after)
    (hconfig : configIn environment options tree = .ok config) :
    let result := (runCommand environment options (.generate inputs none false) :
      StateM FileTree _) tree
    result.1.exit = 0 ∧ result.2 = after := by
  obtain ⟨attempts, hattempts, hsuccess⟩ := h
  intro result
  simp only [result]
  rw [runCommand_generate hconfig, hattempts]
  exact ⟨generateExit_eq_zero_iff.mpr hsuccess, rfl⟩

end Generates

/-! ## Checking after generating -/

/-- After generating some templates without failures, checking them with the same configuration
finds nothing out of date, provided that no attempt wrote the file or the output of an earlier
template. -/
theorem check_of_generate {inputs : List Path} {diff : Bool} {format : ReportFormat}
    (hconfig : configIn environment options tree = .ok config)
    (hexit : ((runCommand environment options (.generate inputs none false) :
      StateM FileTree _) tree).1.exit = 0)
    (hafter : configIn environment options ((runCommand environment options
      (.generate inputs none false) : StateM FileTree _) tree).2 = .ok config)
    (hkept : ((generateEach config config.output.outputPath inputs :
      StateM FileTree _) tree).1.Pairwise fun earlier later => ∀ place, later.Wrote tree place →
        ¬ tree.Denotes earlier.input place ∧ ¬ tree.Denotes earlier.output place) :
    ((runCommand environment options (.check inputs diff format) : StateM FileTree _)
      ((runCommand environment options (.generate inputs none false) :
        StateM FileTree _) tree).2).1.exit = 0 := by
  rw [(runCommand_check hafter inputs diff format).1]
  rw [runCommand_generate hconfig] at hexit ⊢
  exact isCurrent_generateEach (generateExit_eq_zero_iff.mp hexit) hkept

/-- A run that is given nothing but a command. -/
def bareEnvironment : Environment := ⟨[], false, none, []⟩

/-- The options of a command without options. -/
def noOptions : CommonOptions := ⟨none, none, false, false⟩

/-- The working directory with some texts in it. -/
def directoryOf (files : List (String × String)) : FileTree :=
  ⟨files.map fun (name, text) => ([name.toList], .file (.text text.toList)), []⟩

private theorem generates_chain :
    Generates {} [⟨"a.cs".toList⟩, ⟨"a.g.cs".toList⟩] (directoryOf [("a.cs", "n")])
      (directoryOf [("a.cs", "n"), ("a.g.cs", "n"), ("a.g.g.cs", "n")]) :=
  .cons (exists_generateFile_of_not _ {} ⟨"a.cs".toList⟩ _ ['n'] ['n']
      (directoryOf [("a.cs", "n"), ("a.g.cs", "n")]) (by cbv) (by cbv) (by decide) (by decide)
      (ne_of_beq_false (by cbv)) (by cbv))
    (.cons (exists_generateFile_of_not _ {} ⟨"a.g.cs".toList⟩ _ ['n'] ['n'] _ (by cbv) (by cbv)
      (by decide) (by decide) (ne_of_beq_false (by cbv)) (by cbv)) (.nil _ _))

/-- A template may come after the one whose output it is. -/
theorem check_of_generate_chain :
    let inputs : List Path := [⟨"a.cs".toList⟩, ⟨"a.g.cs".toList⟩]
    let generated := (runCommand bareEnvironment noOptions (.generate inputs none false) :
      StateM FileTree _) (directoryOf [("a.cs", "n")])
    generated.1.exit = 0 ∧
      ((runCommand bareEnvironment noOptions (.check inputs false .text) : StateM FileTree _)
        generated.2).1.exit = 0 := by
  intro inputs generated
  have hconfig : configIn bareEnvironment noOptions (directoryOf [("a.cs", "n")]) = .ok {} := by cbv
  obtain ⟨hexit, hafter⟩ := generates_chain.run hconfig
  refine ⟨hexit, check_of_generate hconfig hexit (by rw [hafter]; cbv) ?_⟩
  have hfirst : (directoryOf [("a.cs", "n")]).Denotes ⟨"a.cs".toList⟩ ["a.cs".toList] := by
    rw [Denotes]
    cbv
  have hsecond : (directoryOf [("a.cs", "n")]).Denotes ⟨"a.g.cs".toList⟩ ["a.g.cs".toList] := by
    rw [Denotes]
    cbv
  have hlast : (directoryOf [("a.cs", "n")]).Denotes
      (({} : Config).output.outputPath ⟨"a.g.cs".toList⟩) ["a.g.g.cs".toList] := by
    rw [Denotes]
    cbv
  have hname : ({} : Config).output.outputPath ⟨"a.cs".toList⟩ = ⟨"a.g.cs".toList⟩ := by cbv
  refine pairwise_wrote_of_outputs (List.pairwise_pair.mpr fun place hplace => ?_)
  rw [hname]
  exact ⟨hlast.apart hfirst (by decide) place hplace, hlast.apart hsecond (by decide) place hplace⟩

/-- The templates are generated without failures, and checking them afterwards fails. -/
def LeavesOutdated (tree : FileTree) (inputs : List Path) : Prop :=
  let generated := (runCommand bareEnvironment noOptions (.generate inputs none false) :
    StateM FileTree _) tree
  generated.1.exit = 0 ∧
    ((runCommand bareEnvironment noOptions (.check inputs false .text) : StateM FileTree _)
      generated.2).1.exit ≠ 0

private theorem leavesOutdated_of_generates {inputs : List Path} {input : Path}
    {after : FileTree} {later : Config} (h : Generates config inputs tree after)
    (hconfig : configIn bareEnvironment noOptions tree = .ok config)
    (hlater : configIn bareEnvironment noOptions after = .ok later) (hinput : input ∈ inputs)
    (hstale : ¬ after.IsCurrent later input (later.output.outputPath input)) :
    LeavesOutdated tree inputs := by
  obtain ⟨hexit, hafter⟩ := h.run hconfig
  refine ⟨hexit, ?_⟩
  rw [hafter]
  exact fun hcheck => hstale ((runCommand_check hlater inputs false .text).1.mp hcheck input hinput)

private theorem generates_overwritten :
    Generates {} [⟨"a.g.cs".toList⟩, ⟨"a.cs".toList⟩]
      (directoryOf [("a.cs", "n"), ("a.g.cs", "o")])
      (directoryOf [("a.cs", "n"), ("a.g.cs", "n"), ("a.g.g.cs", "o")]) :=
  .cons (exists_generateFile_of_not _ {} ⟨"a.g.cs".toList⟩ _ ['o'] ['o']
      (directoryOf [("a.cs", "n"), ("a.g.cs", "o"), ("a.g.g.cs", "o")]) (by cbv) (by cbv)
      (by decide) (by decide) (ne_of_beq_false (by cbv)) (by cbv))
    (.cons (exists_generateFile_of_not _ {} ⟨"a.cs".toList⟩ _ ['n'] ['n'] _ (by cbv) (by cbv)
      (by decide) (by decide) (ne_of_beq_false (by cbv)) (by cbv)) (.nil _ _))

/-- A later output may be the file of an earlier template, or the output of one, and an output may
also be the configuration. -/
theorem leavesOutdated_samples :
    LeavesOutdated (directoryOf [("a.cs", "n"), ("a.g.cs", "o")])
        [⟨"a.g.cs".toList⟩, ⟨"a.cs".toList⟩] ∧
      LeavesOutdated (directoryOf [("a", "n"), ("a.tmpl.cs", "o")])
        [⟨"a".toList⟩, ⟨"a.tmpl.cs".toList⟩] ∧
      LeavesOutdated (directoryOf [("tmplgen.tmpl.toml", "x")]) [⟨"tmplgen.tmpl.toml".toList⟩] := by
  refine ⟨?_, ?_, ?_⟩
  · have hlater : configIn bareEnvironment noOptions
        (directoryOf [("a.cs", "n"), ("a.g.cs", "n"), ("a.g.g.cs", "o")]) = .ok {} := by cbv
    refine leavesOutdated_of_generates generates_overwritten (by cbv) hlater List.mem_cons_self ?_
    rw [isCurrent_of_not_iff ['n'] (by cbv) (by cbv) (by decide)]
    exact mt toOption_eq_some_iff.mpr (ne_of_beq_false (by cbv))
  · have hgenerates : Generates {} [⟨"a".toList⟩, ⟨"a.tmpl.cs".toList⟩]
        (directoryOf [("a", "n"), ("a.tmpl.cs", "o")])
        (directoryOf [("a", "n"), ("a.tmpl.cs", "o"), ("a.cs", "o")]) :=
      .cons (exists_generateFile_of_not _ {} ⟨"a".toList⟩ _ ['n'] ['n']
          (directoryOf [("a", "n"), ("a.tmpl.cs", "o"), ("a.cs", "n")]) (by cbv) (by cbv)
          (by decide) (by decide) (ne_of_beq_false (by cbv)) (by cbv))
        (.cons (exists_generateFile_of_not _ {} ⟨"a.tmpl.cs".toList⟩ _ ['o'] ['o'] _ (by cbv)
          (by cbv) (by decide) (by decide) (ne_of_beq_false (by cbv)) (by cbv)) (.nil _ _))
    have hlater : configIn bareEnvironment noOptions
        (directoryOf [("a", "n"), ("a.tmpl.cs", "o"), ("a.cs", "o")]) = .ok {} := by cbv
    refine leavesOutdated_of_generates hgenerates (by cbv) hlater List.mem_cons_self ?_
    rw [isCurrent_of_not_iff ['n'] (by cbv) (by cbv) (by decide)]
    exact mt toOption_eq_some_iff.mpr (ne_of_beq_false (by cbv))
  · have hgenerates : Generates {} [⟨"tmplgen.tmpl.toml".toList⟩]
        (directoryOf [("tmplgen.tmpl.toml", "x")])
        (directoryOf [("tmplgen.tmpl.toml", "x"), ("tmplgen.toml", "x")]) :=
      .cons (exists_generateFile_of_not _ {} ⟨"tmplgen.tmpl.toml".toList⟩ _ ['x'] ['x'] _ (by cbv)
        (by cbv) (by decide) (by decide) (ne_of_beq_false (by cbv)) (by cbv)) (.nil _ _)
    obtain ⟨hexit, hafter⟩ := hgenerates.run
      (show configIn bareEnvironment noOptions _ = .ok {} by cbv)
    have hfault : configIn bareEnvironment noOptions
        (directoryOf [("tmplgen.tmpl.toml", "x"), ("tmplgen.toml", "x")]) =
        .error (.config .unreadable) := by cbv
    refine ⟨hexit, ?_⟩
    rw [hafter, (runCommand_of_fault rfl hfault).1]
    decide

/-! ## Templates of the list -/

/-- Generating changes a file, whether it is listed or not, only if an attempt wrote it: the attempt
at a listed template whose output it is, and which is another file. -/
theorem content?_generate (environment : Environment) (options : CommonOptions) (tree : FileTree)
    (inputs : List Path) (path : Path) :
    let result := (runCommand environment options (.generate inputs none false) :
      StateM FileTree _) tree
    result.2.content? path = tree.content? path ∨
      ∃ config, configIn environment options tree = .ok config ∧
        ∃ attempt ∈ ((generateEach config config.output.outputPath inputs :
            StateM FileTree _) tree).1,
          attempt.input ∈ inputs ∧ attempt.output = config.output.outputPath attempt.input ∧
            ∃ place, attempt.Wrote tree place ∧ tree.Denotes path place := by
  intro result
  cases hconfig : configIn environment options tree with
  | error fault =>
    have htree : result.2 = tree := (runCommand_of_fault rfl hconfig).2
    exact Or.inl (by rw [htree])
  | ok config =>
    simp only [result]
    rw [runCommand_generate hconfig]
    obtain ⟨hframe, hchanged⟩ := generateEach_changes tree config config.output.outputPath inputs
    by_cases hwrote : ∃ attempt ∈ ((generateEach config config.output.outputPath inputs :
        StateM FileTree _) tree).1, ∃ place, attempt.Wrote tree place ∧ tree.Denotes path place
    · obtain ⟨attempt, hattempt, hplace⟩ := hwrote
      obtain ⟨hinput, houtput⟩ := mem_attemptEach hattempt
      exact Or.inr ⟨config, rfl, attempt, hattempt, hinput, houtput, hplace⟩
    · refine Or.inl (hframe.content?_eq fun place hdenotes => ?_)
      refine (hchanged place).resolve_right ?_
      rintro ⟨attempt, hattempt, hplace⟩
      exact hwrote ⟨attempt, hattempt, place, hplace, hdenotes⟩

/-- A listed template that bears the name of another one's output is overwritten. -/
theorem content?_generate_overwritten :
    let before := directoryOf [("a.cs", "n"), ("a.g.cs", "o")]
    let result := (runCommand bareEnvironment noOptions
      (.generate [⟨"a.g.cs".toList⟩, ⟨"a.cs".toList⟩] none false) : StateM FileTree _) before
    before.content? ⟨"a.g.cs".toList⟩ = some (.text ['o']) ∧
      result.2.content? ⟨"a.g.cs".toList⟩ = some (.text ['n']) := by
  intro before result
  have hconfig : configIn bareEnvironment noOptions before = .ok {} := by cbv
  have hafter := (generates_overwritten.run hconfig).2
  refine ⟨by cbv, ?_⟩
  simp only [result]
  rw [hafter]
  cbv

end CommandLine

end Stencil
