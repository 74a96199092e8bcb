import Stencil.Proofs.Generation.Batch

/-!
# Isolated templates

The templates of a batch are isolated if each output is a file of its own, which no other template
generates and no template is. What comes of a template depends on its own file and its output only,
and nothing else changes there. So each attempt is the one that would have been made alone, in
whatever order they are made, and each output ends up as that attempt leaves it.
-/

namespace Stencil

namespace FileTree

variable {tree other : FileTree} {config : Config} {input output : Path} {source target : Location}
  {content : Content}

/-- An output that is another file than the template is the same only if the paths say the same. -/
theorem isSame_of_ne (hsource : tree.Denotes input source)
    (hcontent : tree.node? source = some (.file content)) (htarget : tree.Denotes output target)
    (hne : source ≠ target) :
    tree.isSame input output = decide (input.components = output.components) := by
  by_cases hcomponents : input.components = output.components
  · rw [isSame, if_pos hcomponents, decide_eq_true hcomponents]
  · rw [decide_eq_false hcomponents]
    refine isSame_eq_false_iff.mpr ⟨hcomponents, fun place hinput houtput => hne ?_⟩
    have hresolved := (resolve_file_iff.mpr ⟨hsource, hcontent⟩).1
    obtain rfl := Except.ok.inj (hresolved.symm.trans hinput)
    exact (resolve_file_iff.mp ⟨houtput, hcontent⟩).1.unique htarget

/-- What comes of a template and what its output holds then depend on its own file and its output
only. -/
theorem generateFile_congr (hframe : SameFrame tree other) (hsource : tree.Denotes input source)
    (hcontent : tree.node? source = some (.file content)) (htarget : tree.Denotes output target)
    (hne : source ≠ target) (hinput : other.node? source = tree.node? source)
    (houtput : other.node? target = tree.node? target) :
    let result := (generateFile config input output : StateM FileTree _) tree
    let repeated := (generateFile config input output : StateM FileTree _) other
    repeated.1 = result.1 ∧ repeated.2.node? target = result.2.node? target := by
  have hsource' := hframe.denotes_iff.mpr hsource
  have htarget' := hframe.denotes_iff.mpr htarget
  have hcontent' := hinput.trans hcontent
  have hread : (other.readText output).toOption = (tree.readText output).toOption := by
    apply Option.ext
    intro text
    simp only [toOption_eq_some_iff, readText_eq_ok_iff_denotes, hframe.denotes_iff]
    refine exists_congr fun place => and_congr_right fun hplace => ?_
    rw [hplace.unique htarget, houtput]
  have hrendering : other.rendering config input output = tree.rendering config input output := by
    apply rendering_congr
    · rw [isSame_of_ne hsource' hcontent' htarget' hne, isSame_of_ne hsource hcontent htarget hne]
    · exact hframe.readText_eq hsource hcontent hinput
  obtain ⟨entries, fault, hresult⟩ | ⟨entries, contents, hresult⟩ :=
    tree.rendering_cases config input output
  · rw [generateFile_of_error tree config input output hresult,
      generateFile_of_error other config input output (hrendering.trans hresult)]
    exact ⟨rfl, houtput⟩
  · rw [generateFile_of_ok tree config input output hresult,
      generateFile_of_ok other config input output (hrendering.trans hresult), hread,
      htarget.write_eq, htarget'.write_eq, houtput]
    split
    · exact ⟨rfl, houtput⟩
    · by_cases hdirectory : tree.node? target = some .directory
      · rw [if_pos hdirectory, if_pos hdirectory]
        exact ⟨rfl, houtput⟩
      · have hdirectory' : other.node? target ≠ some .directory := by rwa [houtput]
        rw [if_neg hdirectory, if_neg hdirectory]
        refine ⟨rfl, ?_⟩
        dsimp only
        rw [node?_set_self _ (htarget.canHold hdirectory),
          node?_set_self _ (htarget'.canHold hdirectory')]

end FileTree

/-! ## Batches of isolated templates -/

/-- Templates that can be generated in isolation: each is a file, and its output is or would be one
that no other template generates and that no template is. -/
structure Isolated (tree : FileTree) (outputOf : Path → Path) (inputs : List Path) : Prop where
  input : ∀ input ∈ inputs, tree.isFile input = true
  output : ∀ input ∈ inputs, ∃ place, tree.Denotes (outputOf input) place
  distinct : inputs.Pairwise fun first second =>
    ∀ place, tree.Denotes (outputOf first) place → ¬ tree.Denotes (outputOf second) place
  apart : ∀ input ∈ inputs, ∀ other ∈ inputs, ∀ place, tree.Denotes (outputOf input) place →
    ¬ tree.Denotes other place

/-- The attempt at a template that is made alone. -/
def attemptAlone (tree : FileTree) (config : Config) (outputOf : Path → Path) (input : Path) :
    Attempt WriteOutcome :=
  ⟨input, outputOf input, ((generateFile config input (outputOf input) : StateM FileTree _) tree).1⟩

/-- The tree after a template was generated alone. -/
def treeAlone (tree : FileTree) (config : Config) (outputOf : Path → Path) (input : Path) :
    FileTree :=
  ((generateFile config input (outputOf input) : StateM FileTree _) tree).2

/-- A failed attempt leaves the tree as it is. -/
theorem treeAlone_of_isFailure {tree : FileTree} {config : Config} {outputOf : Path → Path}
    {input : Path} (h : (attemptAlone tree config outputOf input).isFailure = true) :
    treeAlone tree config outputOf input = tree := by
  rw [Attempt.isFailure, attemptAlone] at h
  obtain ⟨-, htree, -⟩ | ⟨-, htree, -⟩ | ⟨hvalue, -⟩ :=
    generateFile_cases tree config input (outputOf input)
  · exact htree
  · exact htree
  · simp [Attempt.outcome, hvalue] at h

namespace Isolated

variable {tree current : FileTree} {config : Config} {outputOf : Path → Path} {input : Path}
  {inputs order rest : List Path}

theorem tail (h : Isolated tree outputOf (input :: rest)) : Isolated tree outputOf rest where
  input other hother := h.input other (List.mem_cons_of_mem input hother)
  output other hother := h.output other (List.mem_cons_of_mem input hother)
  distinct := (List.pairwise_cons.mp h.distinct).2
  apart first hfirst second hsecond :=
    h.apart first (List.mem_cons_of_mem input hfirst) second (List.mem_cons_of_mem input hsecond)

/-- The order of the templates does not matter. -/
theorem perm (h : Isolated tree outputOf inputs) (horder : order.Perm inputs) :
    Isolated tree outputOf order where
  input other hother := h.input other (horder.mem_iff.mp hother)
  output other hother := h.output other (horder.mem_iff.mp hother)
  distinct := h.distinct.perm horder.symm fun hdistinct place hsecond hfirst =>
    hdistinct place hfirst hsecond
  apart first hfirst second hsecond :=
    h.apart first (horder.mem_iff.mp hfirst) second (horder.mem_iff.mp hsecond)

/-- In a tree in which nothing that the templates depend on has changed yet, the attempts are those
that would be made alone, and each output ends up as after its own attempt. -/
theorem generateEach_eq (config : Config) (h : Isolated tree outputOf inputs)
    (hframe : tree.SameFrame current)
    (hkept : ∀ input ∈ inputs, ∀ place,
      tree.Denotes input place ∨ tree.Denotes (outputOf input) place →
        current.node? place = tree.node? place) :
    let batch := (generateEach config outputOf inputs : StateM FileTree _) current
    batch.1 = inputs.map (attemptAlone tree config outputOf) ∧
      (∀ input ∈ inputs, ∀ place, tree.Denotes (outputOf input) place →
        batch.2.node? place = (treeAlone tree config outputOf input).node? place) ∧
      ∀ place, (∀ input ∈ inputs, ¬ tree.Denotes (outputOf input) place) →
        batch.2.node? place = current.node? place := by
  induction inputs generalizing current with
  | nil => exact ⟨rfl, by simp, fun _ _ => rfl⟩
  | cons input rest ih =>
    obtain ⟨source, content, hsource, hcontent⟩ :=
      FileTree.isFile_iff.mp (h.input input List.mem_cons_self)
    obtain ⟨target, htarget⟩ := h.output input List.mem_cons_self
    have hapart := h.apart input List.mem_cons_self
    obtain ⟨hhead, -⟩ := List.pairwise_cons.mp h.distinct
    have hne : source ≠ target := by
      rintro rfl
      exact hapart input List.mem_cons_self source htarget hsource
    obtain ⟨hattempt, hwritten⟩ := FileTree.generateFile_congr hframe hsource hcontent htarget hne
      (hkept input List.mem_cons_self source (Or.inl hsource))
      (hkept input List.mem_cons_self target (Or.inr htarget))
    obtain ⟨hfirst, hchanged⟩ := generateFile_changes current config input (outputOf input)
    have hother : ∀ place, ¬ tree.Denotes (outputOf input) place →
        ((generateFile config input (outputOf input) : StateM FileTree _) current).2.node? place =
          current.node? place := fun place hplace =>
      (hchanged place).resolve_right fun hwrote => hplace (hframe.denotes_iff.mp hwrote.output)
    -- What the other templates depend on is still as it was.
    obtain ⟨hattempts, houtputs, hothers⟩ := ih h.tail (hframe.trans hfirst) fun later hlater place
      hplace => by
        have hin := List.mem_cons_of_mem input hlater
        rw [hother place fun houtput => hplace.elim (hapart later hin place houtput)
          (hhead later hlater place houtput)]
        exact hkept later hin place hplace
    intro batch
    simp only [batch]
    rw [generateEach_cons]
    refine ⟨?_, ?_, ?_⟩
    · rw [List.map_cons, attemptAlone, ← hattempt]
      exact congrArg _ hattempts
    · intro later hlater place hplace
      rcases List.mem_cons.mp hlater with rfl | hlater
      · obtain rfl := hplace.unique htarget
        exact (hothers place fun later hlater => hhead later hlater place hplace).trans hwritten
      · exact houtputs later hlater place hplace
    · intro place hplace
      have hrest := hothers place fun later hlater =>
        hplace later (List.mem_cons_of_mem input hlater)
      exact hrest.trans (hother place (hplace input List.mem_cons_self))

/-- What stands in the tree after a batch does not depend on the order of its templates. -/
theorem node?_generateEach_perm (config : Config) (h : Isolated tree outputOf inputs)
    (horder : order.Perm inputs) (location : Location) :
    ((generateEach config outputOf order : StateM FileTree _) tree).2.node? location =
      ((generateEach config outputOf inputs : StateM FileTree _) tree).2.node? location := by
  obtain ⟨-, houtputs, hothers⟩ := h.generateEach_eq config (.refl tree) fun _ _ _ _ => rfl
  obtain ⟨-, houtputs', hothers'⟩ :=
    (h.perm horder).generateEach_eq config (.refl tree) fun _ _ _ _ => rfl
  by_cases hplace : ∃ input ∈ inputs, tree.Denotes (outputOf input) location
  · obtain ⟨input, hinput, hdenotes⟩ := hplace
    rw [houtputs input hinput location hdenotes,
      houtputs' input (horder.mem_iff.mpr hinput) location hdenotes]
  · have hnone : ∀ input ∈ inputs, ¬ tree.Denotes (outputOf input) location :=
      fun input hinput hdenotes => hplace ⟨input, hinput, hdenotes⟩
    rw [hothers location hnone,
      hothers' location fun input hinput => hnone input (horder.mem_iff.mp hinput)]

/-- Only outputs of attempts that succeeded can change. -/
theorem node?_generateEach_of_isFailure (config : Config) (h : Isolated tree outputOf inputs)
    {location : Location} (hfailed : ∀ input ∈ inputs, tree.Denotes (outputOf input) location →
      (attemptAlone tree config outputOf input).isFailure = true) :
    ((generateEach config outputOf inputs : StateM FileTree _) tree).2.node? location =
      tree.node? location := by
  obtain ⟨-, houtputs, hothers⟩ := h.generateEach_eq config (.refl tree) fun _ _ _ _ => rfl
  by_cases hplace : ∃ input ∈ inputs, tree.Denotes (outputOf input) location
  · obtain ⟨input, hinput, hdenotes⟩ := hplace
    rw [houtputs input hinput location hdenotes,
      treeAlone_of_isFailure (hfailed input hinput hdenotes)]
  · exact hothers location fun input hinput hdenotes => hplace ⟨input, hinput, hdenotes⟩

end Isolated

end Stencil
