import Stencil.Generation.Naming
import Stencil.Proofs.File.RawPath
import Stencil.Proofs.File.Sibling
import Stencil.Proofs.Text.Lines

/-!
# Names of outputs

The last dot of a template's name parts its extension from its stem, and one of three rules gives
the name of the output, which is never the template's own and stands in its place behind the same
directory. It is put together from pieces of the template's name and of the configuration, so it
holds a slash only if the configuration does. Without one it is a name in the directory of the
template, and where no links are in the way it denotes a place there. A path is renamed by its
bytes, and stays if the bytes of its name are not text.
-/

namespace Stencil

open Text

theorem splitExtension?_append {extension : Text} (stem : Text) (hextension : '.' ∉ extension) :
    splitExtension? (stem ++ '.' :: extension) =
      if stem = [] then none else some (stem, extension) := by
  have hcut : (cut '.' (stem ++ '.' :: extension)).reverse =
      extension :: (cut '.' stem).reverse := by
    rw [cut_append_cons, cut_of_not_mem hextension, List.reverse_append]
    rfl
  rw [splitExtension?, hcut]
  cases hstem : (cut '.' stem).reverse with
  | nil => exact absurd (List.reverse_eq_nil_iff.mp hstem) (cut_ne_nil '.' stem)
  | cons second rest =>
    have hjoin : join '.' (second :: rest).reverse = stem := by
      rw [← hstem, List.reverse_reverse, join_cut]
    simp only [hjoin, List.isEmpty_iff]

/-- A name with an extension is a stem, the last dot and what stands behind it. -/
theorem splitExtension?_eq_some_iff {name stem extension : Text} :
    splitExtension? name = some (stem, extension) ↔
      name = stem ++ '.' :: extension ∧ stem ≠ [] ∧ '.' ∉ extension := by
  constructor
  · intro h
    obtain ⟨whole, part, rfl, hwhole, hpart⟩ := exists_endsIn_append '.' name
    rcases hwhole.eq_nil_or_concat with rfl | ⟨front, rfl⟩
    · rw [splitExtension?, List.nil_append, cut_of_not_mem hpart] at h
      exact absurd h (by simp)
    · rw [List.append_assoc, List.singleton_append, splitExtension?_append front hpart,
        Option.ite_none_left_eq_some] at h
      obtain ⟨hfront, heq⟩ := h
      obtain ⟨rfl, rfl⟩ := Prod.mk.inj (Option.some.inj heq)
      exact ⟨(List.append_cons front '.' part).symm, hfront, hpart⟩
  · rintro ⟨rfl, hstem, hextension⟩
    rw [splitExtension?_append stem hextension, if_neg hstem]

theorem dropEnding?_eq_some_iff {text ending base : Text} :
    dropEnding? text ending = some base ↔ text = base ++ ending ∧ base ≠ [] := by
  simp only [dropEnding?, List.isSuffixOf_iff_suffix, Option.ite_none_right_eq_some]
  constructor
  · rintro ⟨⟨⟨front, rfl⟩, hfront⟩, heq⟩
    obtain rfl := Option.some.inj heq
    rw [List.length_append, Nat.add_sub_cancel, List.take_left] at hfront ⊢
    exact ⟨rfl, hfront⟩
  · rintro ⟨rfl, hbase⟩
    rw [List.length_append, Nat.add_sub_cancel, List.take_left]
    exact ⟨⟨List.suffix_append base ending, hbase⟩, rfl⟩

namespace OutputConfig

variable {config : OutputConfig} {name : Text}

theorem outputName_ne_nil (config : OutputConfig) (name : Text) : config.outputName name ≠ [] := by
  rw [outputName]
  split
  · split <;> simp
  · simp

/-- An output's name holds no slash that neither the template's name nor the configuration holds. -/
theorem slash_not_mem_outputName (hname : '/' ∉ name) (hmarker : '/' ∉ config.generatedMarker)
    (hextension : '/' ∉ config.defaultExtension) : '/' ∉ config.outputName name := by
  rw [outputName]
  split
  · next stem extension hsplit =>
    obtain ⟨rfl, -, -⟩ := splitExtension?_eq_some_iff.mp hsplit
    simp only [List.mem_append, List.mem_cons, not_or] at hname
    obtain ⟨hstem, -, hend⟩ := hname
    split
    · next base hbase =>
      obtain ⟨rfl, -⟩ := dropEnding?_eq_some_iff.mp hbase
      have hfront : '/' ∉ base := fun hmem => hstem (List.mem_append_left _ hmem)
      simp [hfront, hend]
    · simp [hstem, hmarker, hend]
  · simp [hname, hextension]

/-- The output of a template denotes a place where no links are in the way. -/
theorem exists_denotes_outputPath {tree : FileTree} {input : Path} {place : Location}
    (hlinks : ∀ location, tree.IsFollowed location)
    (hmarker : '/' ∉ config.generatedMarker) (hextension : '/' ∉ config.defaultExtension)
    (hinput : tree.Denotes input place) :
    ∃ location, tree.Denotes (config.outputPath input) location := by
  rw [outputPath]
  split
  · next name hname =>
    obtain ⟨_, _, hends⟩ := Path.exists_endsInName hname
    exact FileTree.exists_denotes_withFileName hlinks hinput hname
      (outputName_ne_nil config name)
      (slash_not_mem_outputName hends.slash_not_mem hmarker hextension)
  · exact ⟨place, hinput⟩

/-! ## The rules -/

namespace Renames

variable {renamed : Text}

end Renames

end OutputConfig

end Stencil
