import Stencil.Proofs.File.Tree

/-!
# What paths denote

A path denotes the place where a file at its end is or would be created. Writing changes regular
files only, so directories and links stay, and with them what every path denotes. What a path reads
as is then decided by what stands at the place that it denotes.
-/

namespace Stencil.FileTree

variable {tree other : FileTree} {path : Path} {place location : Location}

/-- A file at the end of the path is, or would be created, at the place. -/
def Denotes (tree : FileTree) (path : Path) (place : Location) : Prop :=
  tree.follow true path = .ok place

/-- What the regular file that a path leads to holds, if it leads to one. -/
def content? (tree : FileTree) (path : Path) : Option Content :=
  match tree.resolve path with
  | .error _ => none
  | .ok place =>
    match tree.node? place with
    | some (.file content) => some content
    | _ => none

theorem Denotes.unique {first second : Location} (hfirst : tree.Denotes path first)
    (hsecond : tree.Denotes path second) : first = second :=
  Except.ok.inj (hfirst.symm.trans hsecond)

/-- Two paths denote no common place if they denote different places. -/
theorem Denotes.apart {second : Path} (hpath : tree.Denotes path place)
    (hsecond : tree.Denotes second location) (hne : place ≠ location) (common : Location)
    (h : tree.Denotes path common) : ¬ tree.Denotes second common := by
  obtain rfl := h.unique hpath
  exact fun hcommon => hne (hcommon.unique hsecond)

/-! ## Paths to files -/

section walk

variable {creating : Bool} {links : Nat} {steps : List Step} {start target : Location}

/-- A walk that ends with a slash ends at a directory. -/
theorem Leads.directory_of_slash (h : tree.Leads creating links steps start target)
    (hslash : steps.getLast? = some .slash) : tree.node? target = some .directory := by
  have hlater : ∀ {step : Step} {rest : List Step}, step ≠ .slash →
      (step :: rest).getLast? = some .slash → rest.getLast? = some .slash := by
    intro step rest hstep hlast
    cases rest with
    | nil => exact absurd (Option.some.inj hlast) hstep
    | cons next rest => simpa using hlast
  induction h with
  | done => simp at hslash
  | @stay _ _ rest _ _ _ hdirectory hrest ih =>
    cases rest with
    | nil =>
      cases hrest
      exact hdirectory
    | cons step rest => exact ih (by simpa using hslash)
  | up _ _ ih => exact ih (hlater (by simp) hslash)
  | create => exact absurd hslash (by simp)
  | link _ _ _ _ ih =>
    exact ih (by rw [List.getLast?_append, hlater (by simp) hslash, Option.some_or])
  | enter _ _ _ _ _ ih => exact ih (hlater (by simp) hslash)

/-- Where a walk ends at anything but a directory, a file could also be created. -/
theorem Leads.toCreating (h : tree.Leads false links steps start target)
    (hfile : tree.node? target ≠ some .directory) : tree.Leads true links steps start target := by
  induction h with
  | done => exact .done
  | stay hstep hdirectory _ ih => exact .stay hstep hdirectory (ih hfile)
  | up hdirectory _ ih => exact .up hdirectory (ih hfile)
  | create hcreating => exact absurd hcreating (by simp)
  | link hdirectory _ hlink hrest ih =>
    refine .link hdirectory ?_ hlink (ih hfile)
    rintro ⟨-, rfl⟩
    exact hfile (hrest.directory_of_slash (by simp))
  | enter hdirectory _ hnode hfollowed hrest ih =>
    refine .enter hdirectory ?_ hnode hfollowed (ih hfile)
    rintro ⟨-, rfl⟩
    exact hfile (hrest.directory_of_slash (by simp))

/-- No walk goes on from a file. -/
theorem Leads.eq_of_file {content : Content} (h : tree.Leads creating links steps start target)
    (hfile : tree.node? start = some (.file content)) : steps = [] ∧ target = start := by
  cases h with
  | done => exact ⟨rfl, rfl⟩
  | stay _ hdirectory | up hdirectory | create _ hdirectory | link hdirectory | enter hdirectory =>
    simp [hfile] at hdirectory

/-- A last name leads to a file that is there or missing. -/
theorem Leads.of_canHold {name : Text} (hdirectory : tree.node? location = some .directory)
    (hhold : tree.CanHold (location ++ [name])) :
    tree.Leads true links [.name name] location (location ++ [name]) := by
  rcases hhold with hmissing | ⟨content, hfile⟩
  · exact .create rfl hdirectory hmissing
  · exact .enter hdirectory (by simp) hfile (by simp) .done

end walk

/-- A path leads to a file exactly if there is one at the place that it denotes. -/
theorem resolve_file_iff {content : Content} :
    (tree.resolve path = .ok place ∧ tree.node? place = some (.file content)) ↔
      tree.Denotes path place ∧ tree.node? place = some (.file content) := by
  constructor
  · rintro ⟨hresolve, hfile⟩
    obtain ⟨hpath, hleads⟩ := follow_eq_ok_iff.mp hresolve
    exact ⟨follow_eq_ok_iff.mpr ⟨hpath, hleads.toCreating (by simp [hfile])⟩, hfile⟩
  · rintro ⟨hdenotes, hfile⟩
    have hresolve := resolve_or_missing hdenotes
    exact ⟨hresolve.resolve_right (by simp [hfile]), hfile⟩

theorem content?_eq_some_iff {content : Content} : tree.content? path = some content ↔
    ∃ place, tree.Denotes path place ∧ tree.node? place = some (.file content) := by
  simp only [← resolve_file_iff]
  rw [content?]
  cases tree.resolve path with
  | error fault => simp
  | ok place =>
    simp only [Except.ok.injEq, exists_eq_left']
    split <;> simp_all

theorem readText_eq_ok_iff_denotes {text : Text} : tree.readText path = .ok text ↔
    ∃ place, tree.Denotes path place ∧ tree.node? place = some (.file (.text text)) := by
  simp only [readText_eq_ok_iff, resolve_file_iff]

theorem isFile_iff : tree.isFile path = true ↔
    ∃ place content, tree.Denotes path place ∧ tree.node? place = some (.file content) := by
  simp only [← resolve_file_iff]
  rw [isFile]
  cases tree.resolve path with
  | error fault => simp
  | ok place =>
    simp only [Except.ok.injEq, exists_and_left, exists_eq_left']
    split <;> simp_all

/-- A file can be at a place that a path denotes, unless it is a directory. -/
theorem Denotes.canHold (h : tree.Denotes path place)
    (hplace : tree.node? place ≠ some .directory) : tree.CanHold place :=
  canHold_iff.mpr ⟨hplace, isFollowed_of_follow h⟩

/-- Writing to a path fills the file at the place that it denotes, unless that is a directory. -/
theorem Denotes.write_eq (h : tree.Denotes path place) (content : Content) :
    tree.write path content =
      if tree.node? place = some .directory then .error .isDirectory
      else .ok (tree.set place (.file content)) := by
  rw [write, show tree.follow true path = .ok place from h]
  dsimp only
  split
  · next hdirectory => rw [if_pos hdirectory]
  · next hother => rw [if_neg hother]

/-! ## Trees that differ in files -/

/-- Two trees have the same directories and links, so that they differ in regular files only. -/
structure SameFrame (tree other : FileTree) : Prop where
  workingDirectory : other.workingDirectory = tree.workingDirectory
  node : ∀ location node, (∀ content, node ≠ .file content) →
    (other.node? location = some node ↔ tree.node? location = some node)

namespace SameFrame

theorem refl (tree : FileTree) : SameFrame tree tree := ⟨rfl, fun _ _ _ => Iff.rfl⟩

theorem symm (h : SameFrame tree other) : SameFrame other tree :=
  ⟨h.workingDirectory.symm, fun location node hnode => (h.node location node hnode).symm⟩

theorem trans {last : FileTree} (h : SameFrame tree other) (hlast : SameFrame other last) :
    SameFrame tree last :=
  ⟨hlast.workingDirectory.trans h.workingDirectory, fun location node hnode =>
    (hlast.node location node hnode).trans (h.node location node hnode)⟩

/-- Writing a file keeps directories and links. -/
theorem set (h : tree.CanHold location) (content : Content) :
    SameFrame tree (tree.set location (.file content)) := by
  refine ⟨workingDirectory_set tree location _, fun place node hnode => ?_⟩
  by_cases hplace : place = location
  · subst hplace
    rw [node?_set_self _ h]
    rcases h with hnone | ⟨old, hold⟩
    · simp [hnone, (hnode content).symm]
    · simp [hold, (hnode content).symm, (hnode old).symm]
  · rw [node?_set_of_ne tree _ hplace]

theorem canHold (h : SameFrame tree other) (hhold : tree.CanHold place) : other.CanHold place := by
  obtain ⟨hdirectory, hfollowed⟩ := canHold_iff.mp hhold
  exact canHold_iff.mpr ⟨mt (h.node place .directory (by simp)).mp hdirectory,
    fun target => mt (h.node place (.link target) (by simp)).mp (hfollowed target)⟩

/-- Steps lead to the same place, whichever files are there. -/
theorem leads {links : Nat} {steps : List Step} {start target : Location}
    (hframe : SameFrame tree other) (h : tree.Leads true links steps start target) :
    other.Leads true links steps start target := by
  have hdirectory : ∀ {location}, tree.node? location = some .directory →
      other.node? location = some .directory :=
    fun hat => (hframe.node _ _ (by simp)).mpr hat
  induction h with
  | done => exact .done
  | stay hstep hat _ ih => exact .stay hstep (hdirectory hat) ih
  | up hat _ ih => exact .up (hdirectory hat) ih
  | link hat hslash hlink _ ih =>
    exact .link (hdirectory hat) hslash ((hframe.node _ _ (by simp)).mpr hlink) ih
  | create _ hat hmissing => exact .of_canHold (hdirectory hat) (hframe.canHold (Or.inl hmissing))
  | @enter _ _ _ _ _ node hat hslash hnode hfollowed hrest ih =>
    cases node with
    | file content =>
      obtain ⟨rfl, rfl⟩ := hrest.eq_of_file hnode
      exact .of_canHold (hdirectory hat) (hframe.canHold (Or.inr ⟨content, hnode⟩))
    | directory => exact .enter (hdirectory hat) hslash (hdirectory hnode) hfollowed ih
    | link path => exact absurd rfl (hfollowed path)

theorem denotes_iff (h : SameFrame tree other) :
    other.Denotes path place ↔ tree.Denotes path place := by
  suffices hside : ∀ {tree other : FileTree}, SameFrame tree other → tree.Denotes path place →
      other.Denotes path place from ⟨hside h.symm, hside h⟩
  intro tree other h hdenotes
  obtain ⟨hpath, hleads⟩ := follow_eq_ok_iff.mp hdenotes
  refine follow_eq_ok_iff.mpr ⟨hpath, ?_⟩
  rw [h.workingDirectory]
  exact h.leads hleads

/-- What a path reads as changes only with what stands at the place that it denotes. -/
theorem content?_eq (h : SameFrame tree other)
    (hplace : ∀ place, tree.Denotes path place → other.node? place = tree.node? place) :
    other.content? path = tree.content? path := by
  apply Option.ext
  intro content
  rw [content?_eq_some_iff, content?_eq_some_iff]
  simp only [h.denotes_iff]
  refine exists_congr fun place => and_congr_right fun hdenotes => ?_
  rw [hplace place hdenotes]

/-- A file is read as before if it did not change. -/
theorem readText_eq {content : Content} (h : SameFrame tree other) (hpath : tree.Denotes path place)
    (hfile : tree.node? place = some (.file content))
    (hplace : other.node? place = tree.node? place) :
    other.readText path = tree.readText path := by
  have hother := resolve_file_iff.mpr ⟨h.denotes_iff.mpr hpath, hplace.trans hfile⟩
  rw [readText, readText, hother.1, (resolve_file_iff.mpr ⟨hpath, hfile⟩).1]
  simp only [hplace]

end SameFrame

end Stencil.FileTree
