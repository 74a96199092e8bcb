import Stencil.Proofs.File.Denotation
import Stencil.Proofs.File.Steps

/-!
# Siblings of a file

A walk through a tree without links can be taken apart at any step, and goes through a directory
there. From a directory any name leads on to something that is there or could be created. So a path
denotes a place with any other name as well in the place of its own.
-/

namespace Stencil.FileTree

variable {tree : FileTree} {creating : Bool} {links : Nat} {front back : List Step} {step : Step}
  {start middle target place : Location} {path : Path} {name : Text}

/-- A walk goes through a directory wherever it is taken apart. -/
theorem Leads.exists_of_append (hlinks : ∀ location, tree.IsFollowed location) (hback : back ≠ [])
    (h : tree.Leads creating links (front ++ back) start target) :
    ∃ middle, tree.Leads false links front start middle ∧ tree.node? middle = some .directory := by
  have hnever : ∀ rest : List Step, ¬ (false = true ∧ rest = [.slash]) := by simp
  induction front generalizing start with
  | nil =>
    refine ⟨start, .done, ?_⟩
    cases h with
    | done => exact absurd rfl hback
    | stay _ hdirectory | up hdirectory | create _ hdirectory => exact hdirectory
    | link hdirectory | enter hdirectory => exact hdirectory
  | cons step front ih =>
    rw [List.cons_append] at h
    generalize hrest : front ++ back = rest at h
    cases h with
    | stay hstep hdirectory h =>
      obtain ⟨middle, hfront, hmiddle⟩ := ih (hrest ▸ h)
      exact ⟨middle, .stay hstep hdirectory hfront, hmiddle⟩
    | up hdirectory h =>
      obtain ⟨middle, hfront, hmiddle⟩ := ih (hrest ▸ h)
      exact ⟨middle, .up hdirectory hfront, hmiddle⟩
    | create => exact absurd (List.append_eq_nil_iff.mp hrest).2 hback
    | link _ _ hlink => exact absurd hlink (hlinks _ _)
    | enter hdirectory _ hnode hfollowed h =>
      obtain ⟨middle, hfront, hmiddle⟩ := ih (hrest ▸ h)
      exact ⟨middle, .enter hdirectory (hnever front) hnode hfollowed hfront, hmiddle⟩

/-- Any step can be taken from a directory, if a file may be created at its end. -/
theorem exists_leads_singleton (links : Nat) (step : Step)
    (hlinks : ∀ location, tree.IsFollowed location)
    (hstart : tree.node? start = some .directory) :
    ∃ target, tree.Leads true links [step] start target := by
  cases step with
  | current => exact ⟨_, .stay (Or.inl rfl) hstart .done⟩
  | slash => exact ⟨_, .stay (Or.inr rfl) hstart .done⟩
  | parent => exact ⟨_, .up hstart .done⟩
  | name name =>
    cases hnode : tree.node? (start ++ [name]) with
    | none => exact ⟨_, .create rfl hstart hnode⟩
    | some node =>
      have hfollowed : ∀ path, node ≠ .link path := by
        rintro path rfl
        exact hlinks _ path hnode
      exact ⟨_, .enter hstart (by simp) hnode hfollowed .done⟩

/-- A walk to a directory can be continued by one step. -/
theorem Leads.concat (hlinks : ∀ location, tree.IsFollowed location) (hstep : step ≠ .slash)
    (h : tree.Leads false links front start middle)
    (hlast : tree.Leads true links [step] middle target) :
    tree.Leads true links (front ++ [step]) start target := by
  induction h with
  | done => exact hlast
  | stay hidle hdirectory _ ih => exact .stay hidle hdirectory (ih hlast)
  | up hdirectory _ ih => exact .up hdirectory (ih hlast)
  | create hcreating => exact absurd hcreating (by simp)
  | link _ _ hlink => exact absurd hlink (hlinks _ _)
  | @enter _ _ rest _ _ _ hdirectory _ hnode hfollowed _ ih =>
    refine .enter hdirectory ?_ hnode hfollowed (ih hlast)
    rintro ⟨-, hslash⟩
    cases rest <;> simp_all

/-- Another name in the place of a path's own denotes a place, too. -/
theorem exists_denotes_withFileName (hlinks : ∀ location, tree.IsFollowed location)
    (hpath : tree.follow creating path = .ok place) {old : Text} (hold : path.fileName? = some old)
    (hname : name ≠ []) (hslash : '/' ∉ name) :
    ∃ location, tree.Denotes (path.withFileName name) location := by
  obtain ⟨-, hleads⟩ := follow_eq_ok_iff.mp hpath
  obtain ⟨rest, hrest, hsteps⟩ := Path.exists_steps_eq hold
  obtain ⟨habsolute, step, hstep, hsibling⟩ := path.steps_withFileName hname hslash
  rw [hsteps] at hleads
  obtain ⟨directory, hparent, hdirectory⟩ := hleads.exists_of_append hlinks hrest
  obtain ⟨location, hlast⟩ := exists_leads_singleton linkLimit step hlinks hdirectory
  refine ⟨location, follow_eq_ok_iff.mpr ⟨?_, ?_⟩⟩
  · intro hempty
    simp [Path.steps_eq, hempty, Path.walked, Path.stepOf?] at hsibling
  · rw [hsibling, habsolute, Path.isAbsolute_parent hold]
    exact hparent.concat hlinks hstep hlast

end Stencil.FileTree
