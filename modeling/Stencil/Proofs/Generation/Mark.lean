import Mathlib
import Stencil.Proofs.Expansion.Origin
import Stencil.Proofs.Generation.File

/-!
# The byte order mark of a generated file

A template has one byte order mark taken off before it is read, and the policy decides whether one
is put in front of what is generated. Nothing looks at the generated document itself: if that begins
with a mark of its own, the file does too, whatever the policy says. Such a mark comes from the
template, where it stands behind the first character.
-/

namespace Stencil

open Text

namespace Source

theorem hasBom_ofText (path : Path) (text : Text) :
    (ofText path text).hasBom = (text.head? == some bom) := by
  cases text with
  | nil => rfl
  | cons c rest =>
    rw [ofText]
    split
    · next hc => simp [hc]
    · next hc => simp [hc]

/-- A mark that is left in a template stands behind its first character. -/
theorem bom_mem_tail (path : Path) {text : Text} (h : bom ∈ (ofText path text).content) :
    bom ∈ text.tail := by
  cases text with
  | nil => exact absurd h List.not_mem_nil
  | cons c rest =>
    rw [ofText] at h
    split at h
    · exact h
    · next hc => exact (List.mem_cons.mp h).resolve_left (Ne.symm hc)

end Source

/-- A mark in a generated document stands in its template document. -/
theorem bom_mem_of_generate {config : Config} {text output : Text}
    (h : generate config text = .ok output) (houtput : bom ∈ output) : bom ∈ text := by
  by_contra htext
  have hdigit : ∀ c : Char, c.isDigit = true → c ≠ bom := by
    rintro c hc rfl
    exact absurd hc (by decide)
  have hfree : ∀ c ∈ output, c ≠ bom :=
    forall_generate h hdigit fun c hc heq => htext (heq ▸ hc)
  exact hfree bom houtput rfl

/-- What is rendered is the document that the template generates, behind the mark of the policy. -/
theorem FileTree.exists_generate_of_rendering {tree : FileTree} {config : Config}
    {input output : Path} {rendered : Rendered}
    (h : (tree.rendering config input output).value = .ok rendered) :
    ∃ text generated, tree.readText input = .ok text ∧
      generate config (Source.ofText input text).content = .ok generated ∧
      rendered.contents =
        if config.output.bom.writes (text.head? == some bom) then bom :: generated
        else generated := by
  obtain ⟨hsame, ⟨text, hread⟩, -⟩ := rendering_eq_ok h
  have hvalue : (generateNoted config (Source.ofText input text).content).value =
      generate config (Source.ofText input text).content := rfl
  rw [rendering, hsame, hread] at h
  simp only [Bool.false_eq_true, if_false, renderText, hvalue, Source.hasBom_ofText] at h
  cases hgenerate : generate config (Source.ofText input text).content with
  | error fault => simp [hgenerate, Except.map] at h
  | ok generated =>
    simp only [hgenerate, Except.map, Except.ok.injEq] at h
    exact ⟨text, generated, hread, hgenerate, by rw [← h]⟩

/-- A rendered document begins with a byte order mark if the policy says so, and otherwise exactly
if the generated document begins with one. So it is as the policy says for every template that holds
no mark behind its first character. -/
theorem renderFile_head?_bom {tree : FileTree} {config : Config} {input output : Path}
    {rendered : Rendered}
    (h : ((renderFile config input output : StateM FileTree _) tree).1.value = .ok rendered) :
    ∃ text generated, tree.readText input = .ok text ∧
      generate config (Source.ofText input text).content = .ok generated ∧
      let writes := config.output.bom.writes (text.head? == some bom)
      (rendered.contents.head? = some bom ↔ writes = true ∨ generated.head? = some bom) ∧
      (bom ∉ text.tail → (rendered.contents.head? = some bom ↔ writes = true)) := by
  rw [renderFile_run] at h
  obtain ⟨text, generated, hread, hgenerate, hcontents⟩ :=
    FileTree.exists_generate_of_rendering h
  have hhead : rendered.contents.head? = some bom ↔
      config.output.bom.writes (text.head? == some bom) = true ∨ generated.head? = some bom := by
    rw [hcontents]
    split
    · next hwrites => simp [hwrites]
    · next hwrites => simp [hwrites]
  refine ⟨text, generated, hread, hgenerate, hhead, fun htail => hhead.trans (or_iff_left ?_)⟩
  intro hgenerated
  exact htail (Source.bom_mem_tail input
    (bom_mem_of_generate hgenerate (List.mem_of_head? hgenerated)))

/-- The template is a mark and one letter, and the mark is kept. -/
theorem renderFile_head?_bom_kept :
    let tree : FileTree := ⟨[([['a']], .file (.text [bom, 't']))], []⟩
    ((renderFile {} ⟨['a']⟩ ⟨['b']⟩ : StateM FileTree _) tree).1.value =
        .ok ⟨⟨['a']⟩, ⟨['b']⟩, [bom, 't']⟩ ∧
      ∃ text generated, tree.readText ⟨['a']⟩ = .ok text ∧
        generate {} (Source.ofText ⟨['a']⟩ text).content = .ok generated ∧
        let writes := BomPolicy.preserve.writes (text.head? == some bom)
        ([bom, 't'].head? = some bom ↔ writes = true ∨ generated.head? = some bom) ∧
        (bom ∉ text.tail → ([bom, 't'].head? = some bom ↔ writes = true)) := by
  intro tree
  have h : ((renderFile {} ⟨['a']⟩ ⟨['b']⟩ : StateM FileTree _) tree).1.value =
      .ok ⟨⟨['a']⟩, ⟨['b']⟩, [bom, 't']⟩ := by
    have hsame : tree.isSame ⟨['a']⟩ ⟨['b']⟩ = false := by cbv
    have hread : tree.readText ⟨['a']⟩ = .ok [bom, 't'] := by cbv
    rw [renderFile_run, @FileTree.rendering_of_not _ {} _ _ _ hsame hread (by decide)]
    rfl
  exact ⟨h, renderFile_head?_bom h⟩

/-- No mark is to be written, but only the first of two marks is taken off the template. -/
theorem renderFile_second_bom :
    let tree : FileTree := ⟨[([['a']], .file (.text [bom, bom, 't']))], []⟩
    let config : Config := { output := { bom := .never } }
    ∃ rendered,
      ((renderFile config ⟨['a']⟩ ⟨['b']⟩ : StateM FileTree _) tree).1.value = .ok rendered ∧
      ¬ (rendered.contents.head? = some bom ↔ config.output.bom.writes true = true) := by
  intro tree config
  have hsame : tree.isSame ⟨['a']⟩ ⟨['b']⟩ = false := by cbv
  have hread : tree.readText ⟨['a']⟩ = .ok [bom, bom, 't'] := by cbv
  rw [renderFile_run, @FileTree.rendering_of_not _ config _ _ _ hsame hread (by decide)]
  exact ⟨_, rfl, by decide⟩

end Stencil
