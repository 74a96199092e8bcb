import Stencil.Generation.Batch
import Stencil.Proofs.File.Denotation
import Stencil.Proofs.Generation.File

/-!
# Batches in a tree

An attempt at generating changes one file at most, which its output denotes and its template does
not. So a batch changes a file only if an attempt wrote it, and every other file and all that paths
denote stay. An output that was generated is current until a later attempt writes it or its
template; and looking at outputs changes nothing, so each of them is looked at in the same tree.
-/

namespace Stencil

open FileTree

/-- The attempt wrote the file at a place of the tree: its output denotes the place, and its
template does not. -/
structure Attempt.Wrote (tree : FileTree) (attempt : Attempt WriteOutcome) (place : Location) :
    Prop where
  outcome : attempt.outcome = .ok .written
  output : tree.Denotes attempt.output place
  input : ¬ tree.Denotes attempt.input place

theorem Attempt.isFailure_eq_false_iff {α : Type} {attempt : Attempt α} :
    attempt.isFailure = false ↔ ∃ value, attempt.outcome = .ok value := by
  rw [isFailure]
  cases attempt.outcome <;> simp

theorem Attempt.wrote_iff {tree other : FileTree} {attempt : Attempt WriteOutcome}
    {place : Location} (h : SameFrame tree other) :
    attempt.Wrote other place ↔ attempt.Wrote tree place := by
  constructor
  · rintro ⟨houtcome, houtput, hinput⟩
    exact ⟨houtcome, h.denotes_iff.mp houtput, mt h.denotes_iff.mpr hinput⟩
  · rintro ⟨houtcome, houtput, hinput⟩
    exact ⟨houtcome, h.denotes_iff.mpr houtput, mt h.denotes_iff.mp hinput⟩

/-! ## One attempt -/

namespace FileTree

variable {tree other : FileTree} {config : Config} {input output : Path}

/-- The output of a rendered document is no file of the template. -/
theorem not_denotes_of_rendering {rendered : Rendered} {place : Location}
    (h : (tree.rendering config input output).value = .ok rendered)
    (houtput : tree.Denotes output place) : ¬ tree.Denotes input place := by
  intro hinput
  obtain ⟨hsame, ⟨text, hread⟩, -⟩ := rendering_eq_ok h
  obtain ⟨file, hdenotes, hfile⟩ := readText_eq_ok_iff_denotes.mp hread
  obtain rfl := hinput.unique hdenotes
  have hresolveInput := (resolve_file_iff.mpr ⟨hinput, hfile⟩).1
  have hresolveOutput := (resolve_file_iff.mpr ⟨houtput, hfile⟩).1
  exact (isSame_eq_false_iff.mp hsame).2 _ hresolveInput hresolveOutput

/-- An output stays current while neither its file nor that of its template changes. -/
theorem IsCurrent.of_sameFrame (h : tree.IsCurrent config input output)
    (hframe : SameFrame tree other)
    (hinput : ∀ place, tree.Denotes input place → other.node? place = tree.node? place)
    (houtput : ∀ place, tree.Denotes output place → other.node? place = tree.node? place) :
    other.IsCurrent config input output := by
  obtain ⟨contents, hrendering, hcurrent⟩ := h
  obtain ⟨hsame, ⟨text, hread⟩, -⟩ := rendering_eq_ok hrendering
  obtain ⟨hcomponents, -⟩ := isSame_eq_false_iff.mp hsame
  obtain ⟨source, hsource, hsourceFile⟩ := readText_eq_ok_iff_denotes.mp hread
  obtain ⟨target, htarget, htargetFile⟩ := readText_eq_ok_iff_denotes.mp hcurrent
  have hne : source ≠ target := by
    rintro rfl
    exact not_denotes_of_rendering hrendering htarget hsource
  have hsource' : other.Denotes input source ∧ other.node? source = some (.file (.text text)) :=
    ⟨hframe.denotes_iff.mpr hsource, (hinput source hsource).trans hsourceFile⟩
  have htarget' : other.Denotes output target ∧
      other.node? target = some (.file (.text contents)) :=
    ⟨hframe.denotes_iff.mpr htarget, (houtput target htarget).trans htargetFile⟩
  have hread' : other.readText input = .ok text :=
    readText_eq_ok_iff_denotes.mpr ⟨source, hsource'⟩
  have hsame' : other.isSame input output = false := by
    refine isSame_eq_false_iff.mpr ⟨hcomponents, fun place hplace houtputPlace => hne ?_⟩
    obtain rfl := Except.ok.inj ((resolve_file_iff.mpr hsource').1.symm.trans hplace)
    exact Except.ok.inj (houtputPlace.symm.trans (resolve_file_iff.mpr htarget').1)
  refine ⟨contents, ?_, readText_eq_ok_iff_denotes.mpr ⟨target, htarget'⟩⟩
  rw [rendering_congr (hsame'.trans hsame.symm) (hread'.trans hread.symm), hrendering]

end FileTree

/-- An attempt at generating changes one file at most, and reports that it wrote it. -/
theorem generateFile_changes (tree : FileTree) (config : Config) (input output : Path) :
    let result := (generateFile config input output : StateM FileTree _) tree
    SameFrame tree result.2 ∧ ∀ place, result.2.node? place = tree.node? place ∨
      Attempt.Wrote tree ⟨input, output, result.1⟩ place := by
  intro result
  obtain ⟨-, htree, -⟩ | ⟨-, htree, -⟩ | ⟨hvalue, -, contents, hrendering, hwrite⟩ :=
    generateFile_cases tree config input output
  · exact ⟨htree ▸ .refl tree, fun _ => Or.inl (by rw [htree])⟩
  · exact ⟨htree ▸ .refl tree, fun _ => Or.inl (by rw [htree])⟩
  · obtain ⟨location, hdenotes, hhold, hafter⟩ := write_eq_ok_iff.mp hwrite
    simp only [result, hafter]
    refine ⟨.set hhold _, fun place => ?_⟩
    by_cases hplace : place = location
    · subst hplace
      exact Or.inr ⟨hvalue, hdenotes, not_denotes_of_rendering hrendering hdenotes⟩
    · exact Or.inl (node?_set_of_ne tree _ hplace)

theorem leavesTree_renderFile (config : Config) (input output : Path) :
    LeavesTree (renderFile config input output) := by
  intro tree
  rw [renderFile_run]

/-- Checking an output leaves the tree as it is. -/
theorem leavesTree_checkFile (config : Config) (input output : Path) :
    LeavesTree (checkFile config input output) := by
  refine (leavesTree_renderFile config input output).bind fun rendered => ?_
  split
  · exact .pure _
  · refine (LeavesTree.readText output).bind fun current => ?_
    split
    · exact .pure _
    · exact .pure _
    · split <;> exact .pure _

/-! ## Attempts one after the other -/

section attempts

variable {α : Type} {act : Path → Path → StateM FileTree (Noted (Except Error α))}
  {outputOf : Path → Path}

theorem attemptEach_cons (tree : FileTree) (input : Path) (rest : List Path) :
    attemptEach act outputOf (input :: rest) tree =
      (⟨input, outputOf input, (act input (outputOf input) tree).1⟩ ::
          (attemptEach act outputOf rest (act input (outputOf input) tree).2).1,
        (attemptEach act outputOf rest (act input (outputOf input) tree).2).2) := rfl

/-- There is one attempt for each template, in order. -/
theorem attempts_eq (tree : FileTree) (inputs : List Path) :
    ((attemptEach act outputOf inputs tree).1.map fun attempt => (attempt.input, attempt.output)) =
      inputs.map fun input => (input, outputOf input) := by
  induction inputs generalizing tree with
  | nil => rfl
  | cons input rest ih => rw [attemptEach_cons, List.map_cons, ih, List.map_cons]

/-- A relation between the attempts that depends on their files only. -/
theorem pairwise_attempts_iff {tree : FileTree} {inputs : List Path}
    (relation : Path × Path → Path × Path → Prop) :
    ((attemptEach act outputOf inputs tree).1.Pairwise fun earlier later =>
        relation (earlier.input, earlier.output) (later.input, later.output)) ↔
      inputs.Pairwise fun earlier later =>
        relation (earlier, outputOf earlier) (later, outputOf later) := by
  have hmapped := (List.pairwise_map (R := relation) (l := (attemptEach act outputOf inputs tree).1)
    (f := fun attempt => (attempt.input, attempt.output))).symm
  rw [hmapped, attempts_eq, List.pairwise_map]

theorem mem_attemptEach {tree : FileTree} {inputs : List Path} {attempt : Attempt α}
    (h : attempt ∈ (attemptEach act outputOf inputs tree).1) :
    attempt.input ∈ inputs ∧ attempt.output = outputOf attempt.input := by
  have hpair : (attempt.input, attempt.output) ∈
      (attemptEach act outputOf inputs tree).1.map fun attempt => (attempt.input, attempt.output) :=
    List.mem_map_of_mem h
  rw [attempts_eq] at hpair
  obtain ⟨input, hinput, heq⟩ := List.mem_map.mp hpair
  obtain ⟨rfl, houtput⟩ := Prod.mk.inj heq
  exact ⟨hinput, houtput.symm⟩

/-- Attempts that change nothing are all made in the same tree. -/
theorem attemptEach_of_fixed {tree : FileTree}
    (hact : ∀ input, (act input (outputOf input) tree).2 = tree) (inputs : List Path) :
    attemptEach act outputOf inputs tree =
      (inputs.map fun input => ⟨input, outputOf input, (act input (outputOf input) tree).1⟩,
        tree) := by
  induction inputs with
  | nil => rfl
  | cons input rest ih => rw [attemptEach_cons, hact, ih, List.map_cons]

end attempts

/-- All outputs are checked in the same tree. -/
theorem checkEach_run (tree : FileTree) (config : Config) (inputs : List Path) :
    (checkEach config inputs : StateM FileTree _) tree =
      (inputs.map fun input => ⟨input, config.output.outputPath input,
        ((checkFile config input (config.output.outputPath input) : StateM FileTree _) tree).1⟩,
        tree) :=
  attemptEach_of_fixed (fun _ => leavesTree_checkFile config _ _ tree) inputs

section generate

variable {config : Config} {outputOf : Path → Path}

theorem generateEach_cons (tree : FileTree) (config : Config) (outputOf : Path → Path)
    (input : Path) (rest : List Path) :
    (generateEach config outputOf (input :: rest) : StateM FileTree _) tree =
      let first := (generateFile config input (outputOf input) : StateM FileTree _) tree
      let others := (generateEach config outputOf rest : StateM FileTree _) first.2
      (⟨input, outputOf input, first.1⟩ :: others.1, others.2) := rfl

/-- A batch changes a file only if one of its attempts wrote it. -/
theorem generateEach_changes (tree : FileTree) (config : Config) (outputOf : Path → Path)
    (inputs : List Path) :
    let result := (generateEach config outputOf inputs : StateM FileTree _) tree
    SameFrame tree result.2 ∧ ∀ place, result.2.node? place = tree.node? place ∨
      ∃ attempt ∈ result.1, attempt.Wrote tree place := by
  induction inputs generalizing tree with
  | nil => exact ⟨.refl tree, fun _ => Or.inl rfl⟩
  | cons input rest ih =>
    intro result
    obtain ⟨hfirst, hchanged⟩ := generateFile_changes tree config input (outputOf input)
    obtain ⟨hrest, hlater⟩ :=
      ih ((generateFile config input (outputOf input) : StateM FileTree _) tree).2
    refine ⟨hfirst.trans hrest, fun place => ?_⟩
    rcases hlater place with hkept | ⟨attempt, hattempt, hwrote⟩
    · rcases hchanged place with hsame | hwrote
      · exact Or.inl (hkept.trans hsame)
      · exact Or.inr ⟨_, List.mem_cons_self, hwrote⟩
    · exact Or.inr ⟨attempt, List.mem_cons_of_mem _ hattempt, (Attempt.wrote_iff hfirst).mp hwrote⟩

/-- No attempt writes over an earlier one if no output is the file or the output of an earlier
template. -/
theorem pairwise_wrote_of_outputs {tree : FileTree} {inputs : List Path}
    (h : inputs.Pairwise fun earlier later => ∀ place, tree.Denotes (outputOf later) place →
      ¬ tree.Denotes earlier place ∧ ¬ tree.Denotes (outputOf earlier) place) :
    ((generateEach config outputOf inputs : StateM FileTree _) tree).1.Pairwise
      fun earlier later => ∀ place, later.Wrote tree place →
        ¬ tree.Denotes earlier.input place ∧ ¬ tree.Denotes earlier.output place := by
  have hkept : ((generateEach config outputOf inputs : StateM FileTree _) tree).1.Pairwise
      fun earlier later => ∀ place, tree.Denotes later.output place →
        ¬ tree.Denotes earlier.input place ∧ ¬ tree.Denotes earlier.output place :=
    (pairwise_attempts_iff fun earlier later => ∀ place, tree.Denotes later.2 place →
      ¬ tree.Denotes earlier.1 place ∧ ¬ tree.Denotes earlier.2 place).mpr h
  exact hkept.imp fun hapart place hwrote => hapart place hwrote.output

/-- After a batch without failures, the outputs are current unless a later attempt wrote an earlier
one or its template. -/
theorem isCurrent_generateEach {tree : FileTree} {inputs : List Path}
    (hsuccess : ∀ attempt ∈ ((generateEach config outputOf inputs : StateM FileTree _) tree).1,
      attempt.isFailure = false)
    (hkept : ((generateEach config outputOf inputs : StateM FileTree _) tree).1.Pairwise
      fun earlier later => ∀ place, later.Wrote tree place →
        ¬ tree.Denotes earlier.input place ∧ ¬ tree.Denotes earlier.output place) :
    ∀ input ∈ inputs, ((generateEach config outputOf inputs : StateM FileTree _) tree).2.IsCurrent
      config input (outputOf input) := by
  induction inputs generalizing tree with
  | nil => simp
  | cons input rest ih =>
    rw [generateEach_cons] at hsuccess hkept ⊢
    obtain ⟨hfirst, -⟩ := generateFile_changes tree config input (outputOf input)
    generalize hresult :
      (generateFile config input (outputOf input) : StateM FileTree _) tree = first at *
    obtain ⟨hrest, hlater⟩ := generateEach_changes first.2 config outputOf rest
    obtain ⟨hhead, htail⟩ := List.pairwise_cons.mp hkept
    -- What an attempt wrote can be asked of the tree that the first attempt left as well.
    have hwrote : ∀ {attempt : Attempt WriteOutcome} {place : Location},
        attempt.Wrote first.2 place ↔ attempt.Wrote tree place := Attempt.wrote_iff hfirst
    have hplace : ∀ place, tree.Denotes input place ∨ tree.Denotes (outputOf input) place →
        ((generateEach config outputOf rest : StateM FileTree _) first.2).2.node? place =
          first.2.node? place := by
      intro place hdenotes
      refine (hlater place).resolve_right ?_
      rintro ⟨attempt, hattempt, hwritten⟩
      obtain ⟨hinput, houtput⟩ := hhead attempt hattempt place (hwrote.mp hwritten)
      exact hdenotes.elim hinput houtput
    have hcurrent : first.2.IsCurrent config input (outputOf input) := by
      obtain ⟨outcome, houtcome⟩ :=
        Attempt.isFailure_eq_false_iff.mp (hsuccess _ List.mem_cons_self)
      rw [← hresult] at houtcome ⊢
      exact isCurrent_generateFile tree config input (outputOf input) houtcome
    intro other hother
    rcases List.mem_cons.mp hother with rfl | hother
    · exact hcurrent.of_sameFrame hrest
        (fun place hdenotes => hplace place (Or.inl (hfirst.denotes_iff.mp hdenotes)))
        (fun place hdenotes => hplace place (Or.inr (hfirst.denotes_iff.mp hdenotes)))
    · refine ih (fun attempt hattempt => hsuccess attempt (List.mem_cons_of_mem _ hattempt)) ?_
        other hother
      simpa only [hwrote, hfirst.denotes_iff] using htail

end generate

end Stencil
