import Stencil.File.Tree

/-!
# Writing a file

Writing fills the file at one location, where no directory and no link stands. Whatever else a path
leads to, it leads there still: a walk through a tree asks only for directories and links on its
way, and for anything else at its end. The path that was written to now leads to the new file.
-/

namespace Stencil.FileTree

variable {tree : FileTree} {location : Location}

/-- A file can be at the location: there is one, or there is nothing. -/
def CanHold (tree : FileTree) (location : Location) : Prop :=
  tree.node? location = none ∨ ∃ content, tree.node? location = some (.file content)

/-- No link stands at the location. -/
def IsFollowed (tree : FileTree) (location : Location) : Prop :=
  ∀ target, tree.node? location ≠ some (.link target)

/-- A file can be where neither a directory nor a link is. -/
theorem canHold_iff : tree.CanHold location ↔
    tree.node? location ≠ some .directory ∧ tree.IsFollowed location := by
  rw [CanHold, IsFollowed]
  cases hnode : tree.node? location with
  | none => simp
  | some node => cases node <;> simp

/-! ## Changing one place -/

private theorem lookup_map_replace (nodes : List (Location × Node)) (location other : Location)
    (node : Node) :
    (nodes.map fun entry => if entry.1 == location then (location, node) else entry).lookup other =
      if other = location then (nodes.lookup other).map fun _ => node else nodes.lookup other := by
  induction nodes with
  | nil => simp
  | cons entry rest ih =>
    obtain ⟨place, old⟩ := entry
    rw [List.map_cons]
    by_cases hplace : place = location
    · subst hplace
      rw [if_pos (beq_self_eq_true place), List.lookup_cons, List.lookup_cons, ih]
      by_cases hother : other = place
      · simp [hother]
      · rw [beq_false_of_ne hother, if_neg hother]
    · rw [if_neg (by simpa using hplace), List.lookup_cons, List.lookup_cons, ih]
      by_cases hother : other = location
      · rw [if_pos hother, if_pos hother, hother, beq_false_of_ne (Ne.symm hplace)]
      · rw [if_neg hother, if_neg hother]

theorem lookup_set (tree : FileTree) (location other : Location) (node : Node) :
    (tree.set location node).nodes.lookup other =
      if other = location then some node else tree.nodes.lookup other := by
  rw [set]
  split
  · next hany =>
    rw [lookup_map_replace]
    split
    · next hother =>
      cases hlookup : tree.nodes.lookup other with
      | some old => rfl
      | none =>
        obtain ⟨entry, hentry, hplace⟩ := List.any_eq_true.mp hany
        have hdiffers := bne_iff_ne.mp (List.lookup_eq_none_iff.mp hlookup entry hentry)
        exact absurd (hother.trans (eq_of_beq hplace).symm) hdiffers
    · rfl
  · next hany =>
    rw [List.lookup_append, List.lookup_cons]
    by_cases hother : other = location
    · have hnone : tree.nodes.lookup location = none := by
        rw [List.lookup_eq_none_iff]
        intro entry hentry
        have hdiffers := mt (fun h => List.any_eq_true.mpr ⟨entry, hentry, h⟩) hany
        exact bne_iff_ne.mpr fun heq => hdiffers (beq_iff_eq.mpr heq.symm)
      subst hother
      rw [hnone, if_pos rfl, beq_self_eq_true]
      rfl
    · rw [beq_false_of_ne hother, if_neg hother]
      simp

@[simp] theorem workingDirectory_set (tree : FileTree) (location : Location) (node : Node) :
    (tree.set location node).workingDirectory = tree.workingDirectory := rfl

theorem node?_set_of_ne {other : Location} (tree : FileTree) (node : Node) (h : other ≠ location) :
    (tree.set location node).node? other = tree.node? other := by
  rw [node?, node?, lookup_set, if_neg h, workingDirectory_set]

theorem node?_set_self (node : Node) (h : tree.CanHold location) :
    (tree.set location node).node? location = some node := by
  have houtside : location.isPrefixOf tree.workingDirectory = false := by
    rw [CanHold, node?] at h
    cases houtside : location.isPrefixOf tree.workingDirectory with
    | false => rfl
    | true => simp [houtside] at h
  rw [node?, lookup_set, if_pos rfl, workingDirectory_set, houtside]
  rfl

/-! ## Walking -/

/-- Steps from one location lead to another one, by no more than so many links. The last name may be
missing where a file is to be created. -/
inductive Leads (tree : FileTree) (creating : Bool) :
    Nat → List Step → Location → Location → Prop
  | done {links : Nat} {location : Location} : Leads tree creating links [] location location
  | stay {links : Nat} {step : Step} {rest : List Step} {location target : Location}
      (hstep : step = .current ∨ step = .slash) (hdirectory : tree.node? location = some .directory)
      (hrest : Leads tree creating links rest location target) :
      Leads tree creating links (step :: rest) location target
  | up {links : Nat} {rest : List Step} {location target : Location}
      (hdirectory : tree.node? location = some .directory)
      (hrest : Leads tree creating links rest location.dropLast target) :
      Leads tree creating links (.parent :: rest) location target
  | create {links : Nat} {name : Text} {location : Location} (hcreating : creating = true)
      (hdirectory : tree.node? location = some .directory)
      (hmissing : tree.node? (location ++ [name]) = none) :
      Leads tree creating links [.name name] location (location ++ [name])
  | link {links : Nat} {name : Text} {rest : List Step} {location target : Location} {path : Path}
      (hdirectory : tree.node? location = some .directory)
      (hslash : ¬ (creating ∧ rest = [.slash]))
      (hlink : tree.node? (location ++ [name]) = some (.link path))
      (hrest : Leads tree creating links (path.steps ++ rest)
        (if path.isAbsolute then [] else location) target) :
      Leads tree creating (links + 1) (.name name :: rest) location target
  | enter {links : Nat} {name : Text} {rest : List Step} {location target : Location} {node : Node}
      (hdirectory : tree.node? location = some .directory)
      (hslash : ¬ (creating ∧ rest = [.slash]))
      (hnode : tree.node? (location ++ [name]) = some node) (hfollowed : ∀ path, node ≠ .link path)
      (hrest : Leads tree creating links rest (location ++ [name]) target) :
      Leads tree creating links (.name name :: rest) location target

section walk

variable {creating : Bool} {links : Nat} {steps : List Step} {start target : Location}

theorem leads_of_walk (h : tree.walk creating links steps start = .ok target) :
    tree.Leads creating links steps start target := by
  fun_induction tree.walk creating links steps start with
  | case1 =>
    obtain rfl := Except.ok.inj h
    exact .done
  | case2 | case3 | case4 | case8 | case10 | case11 => exact absurd h (by simp)
  | case5 _ _ _ hdirectory ih => exact .stay (Or.inl rfl) hdirectory (ih h)
  | case6 _ _ _ hdirectory ih => exact .stay (Or.inr rfl) hdirectory (ih h)
  | case7 _ _ _ hdirectory ih => exact .up hdirectory (ih h)
  | case9 _ _ _ hdirectory _ _ hmissing hcreating =>
    obtain ⟨rfl, rfl⟩ := hcreating
    obtain rfl := Except.ok.inj h
    exact .create rfl hdirectory hmissing
  | case12 _ _ hdirectory _ hslash _ hlink _ ih => exact .link hdirectory hslash hlink (ih h)
  | case13 _ _ _ hdirectory _ hslash _ hfollowed hnode ih =>
    exact .enter hdirectory hslash hnode hfollowed (ih h)

theorem Leads.walk_eq (h : tree.Leads creating links steps start target) :
    tree.walk creating links steps start = .ok target := by
  induction h with
  | done => rw [walk]
  | stay hstep hdirectory _ ih =>
    rcases hstep with rfl | rfl <;> simpa [walk, hdirectory] using ih
  | up hdirectory _ ih => simpa [walk, hdirectory] using ih
  | create hcreating hdirectory hmissing => simp [walk, hdirectory, hmissing, hcreating]
  | link hdirectory hslash hlink _ ih =>
    rw [walk]
    simpa [hdirectory, hslash, hlink] using ih
  | @enter _ _ _ _ _ node hdirectory hslash hnode hfollowed _ ih =>
    rw [walk]
    cases node with
    | link path => exact absurd rfl (hfollowed path)
    | file content => simpa [hdirectory, hslash, hnode] using ih
    | directory => simpa [hdirectory, hslash, hnode] using ih

/-- A walk does not end at a link, unless it begins below one. -/
theorem Leads.isFollowed (h : tree.Leads creating links steps start target)
    (hstart : ∀ front, front <+: start → tree.IsFollowed front) : tree.IsFollowed target := by
  induction h with
  | done => exact hstart _ (List.prefix_refl _)
  | stay _ _ _ ih => exact ih hstart
  | up _ _ ih => exact ih fun front hfront => hstart front (hfront.trans (List.dropLast_prefix _))
  | create _ _ hmissing =>
    intro path hpath
    simp [hmissing] at hpath
  | @link _ _ _ location _ path _ _ _ _ ih =>
    refine ih fun front hfront => ?_
    split at hfront
    · exact hstart front (hfront.trans (List.nil_prefix))
    · exact hstart front hfront
  | @enter _ name _ location _ node _ _ hnode hfollowed _ ih =>
    refine ih fun front hfront => ?_
    rcases List.prefix_concat_iff.mp hfront with rfl | hfront
    · intro path hpath
      rw [hnode] at hpath
      exact hfollowed path (Option.some.inj hpath)
    · exact hstart front hfront

/-- A file that could be created is there already, or it is missing. -/
theorem Leads.exists_or_missing (h : tree.Leads creating links steps start target) :
    tree.Leads false links steps start target ∨ tree.node? target = none := by
  have hnever : ∀ rest : List Step, ¬ (false = true ∧ rest = [.slash]) := by simp
  induction h with
  | done => exact Or.inl .done
  | stay hstep hdirectory _ ih => exact ih.imp_left (.stay hstep hdirectory)
  | up hdirectory _ ih => exact ih.imp_left (.up hdirectory)
  | create _ _ hmissing => exact Or.inr hmissing
  | link hdirectory _ hlink _ ih => exact ih.imp_left (.link hdirectory (hnever _) hlink)
  | enter hdirectory _ hnode hfollowed _ ih =>
    exact ih.imp_left (.enter hdirectory (hnever _) hnode hfollowed)

/-- Steps lead where they did after a file was written, and to the file if they led to its place. -/
theorem Leads.set (h : tree.Leads creating links steps start target) (content : Content)
    (hlocation : tree.CanHold location) (hcreated : creating = true → target = location) :
    (tree.set location (.file content)).Leads false links steps start target := by
  have hnever : ∀ rest : List Step, ¬ (false = true ∧ rest = [.slash]) := by simp
  -- Only directories and links are asked for on the way, and the place written to holds neither.
  have hkeep : ∀ {other : Location} {node : Node}, tree.node? other = some node →
      (∀ old, node ≠ .file old) → (tree.set location (.file content)).node? other = some node := by
    intro other node hnode hfile
    by_cases hother : other = location
    · subst hother
      rcases hlocation with hnone | ⟨old, hold⟩
      · simp [hnone] at hnode
      · rw [hold] at hnode
        exact absurd (Option.some.inj hnode).symm (hfile old)
    · rw [node?_set_of_ne tree _ hother, hnode]
  induction h with
  | done => exact .done
  | stay hstep hdirectory _ ih => exact .stay hstep (hkeep hdirectory (by simp)) (ih hcreated)
  | up hdirectory _ ih => exact .up (hkeep hdirectory (by simp)) (ih hcreated)
  | create hcreating hdirectory hmissing =>
    obtain rfl := hcreated hcreating
    have hfile := node?_set_self (.file content) hlocation
    exact .enter (hkeep hdirectory (by simp)) (hnever _) hfile (by simp) .done
  | link hdirectory _ hlink _ ih =>
    exact .link (hkeep hdirectory (by simp)) (hnever _) (hkeep hlink (by simp)) (ih hcreated)
  | @enter _ name _ place _ node hdirectory _ hnode hfollowed _ ih =>
    by_cases hplace : place ++ [name] = location
    · subst hplace
      have hfile := node?_set_self (.file content) hlocation
      exact .enter (hkeep hdirectory (by simp)) (hnever _) hfile (by simp) (ih hcreated)
    · refine .enter (hkeep hdirectory (by simp)) (hnever _) ?_ hfollowed (ih hcreated)
      rw [node?_set_of_ne tree _ hplace, hnode]

end walk

/-! ## Paths -/

section path

variable {creating : Bool} {path : Path} {place : Location} {content : Content}

theorem follow_eq_ok_iff : tree.follow creating path = .ok place ↔ path.text ≠ [] ∧
    tree.Leads creating linkLimit path.steps
      (if path.isAbsolute then [] else tree.workingDirectory) place := by
  rw [follow]
  split
  · next hempty => simp [hempty]
  · next hempty => exact ⟨fun h => ⟨hempty, leads_of_walk h⟩, fun h => h.2.walk_eq⟩

/-- A path does not lead to a link: every link is followed. -/
theorem isFollowed_of_follow (h : tree.follow creating path = .ok place) :
    tree.IsFollowed place := by
  refine (follow_eq_ok_iff.mp h).2.isFollowed fun front hfront => ?_
  have hwithin : front.isPrefixOf tree.workingDirectory = true := by
    rw [List.isPrefixOf_iff_prefix]
    split at hfront
    · exact hfront.trans List.nil_prefix
    · exact hfront
  intro target
  rw [node?, if_pos hwithin]
  simp

theorem resolve_or_missing (h : tree.follow creating path = .ok place) :
    tree.resolve path = .ok place ∨ tree.node? place = none := by
  obtain ⟨hpath, hleads⟩ := follow_eq_ok_iff.mp h
  exact hleads.exists_or_missing.imp_left fun hleads => follow_eq_ok_iff.mpr ⟨hpath, hleads⟩

theorem resolve_set (h : tree.follow creating path = .ok place) (content : Content)
    (hlocation : tree.CanHold location) (hcreated : creating = true → place = location) :
    (tree.set location (.file content)).resolve path = .ok place := by
  obtain ⟨hpath, hleads⟩ := follow_eq_ok_iff.mp h
  exact follow_eq_ok_iff.mpr ⟨hpath, hleads.set content hlocation hcreated⟩

theorem readText_eq_ok_iff {text : Text} : tree.readText path = .ok text ↔
    ∃ place, tree.resolve path = .ok place ∧ tree.node? place = some (.file (.text text)) := by
  rw [readText]
  cases tree.resolve path with
  | error fault => simp
  | ok place =>
    simp only [Except.ok.injEq, exists_eq_left']
    split <;> simp_all

/-- What a path leads to is read as before if another file was written. -/
theorem readText_set (h : tree.resolve path = .ok place) (content : Content)
    (hlocation : tree.CanHold location) (hne : place ≠ location) :
    (tree.set location (.file content)).readText path = tree.readText path := by
  rw [readText, readText, resolve_set h content hlocation (by simp), h]
  simp only [node?_set_of_ne tree (.file content) hne]

/-- Writing fills the file at the end of a path, which is there or missing. -/
theorem write_eq_ok_iff {after : FileTree} : tree.write path content = .ok after ↔
    ∃ location, tree.follow true path = .ok location ∧ tree.CanHold location ∧
      after = tree.set location (.file content) := by
  rw [write]
  cases hfollow : tree.follow true path with
  | error fault => simp
  | ok location =>
    have hfollowed := isFollowed_of_follow hfollow
    simp only [Except.ok.injEq, exists_eq_left']
    rw [canHold_iff, and_iff_left hfollowed]
    split
    · next hdirectory => simp [hdirectory]
    · next hother => simp [show tree.node? location ≠ some .directory from hother, eq_comm]

/-- Writing fills one file and nothing else, and the path leads to it from then on. -/
theorem exists_of_write {after : FileTree} (h : tree.write path content = .ok after) :
    ∃ location, (tree.resolve path = .ok location ∨ tree.node? location = none) ∧
      tree.CanHold location ∧ after = tree.set location (.file content) ∧
      after.resolve path = .ok location := by
  obtain ⟨location, hfollow, hhold, rfl⟩ := write_eq_ok_iff.mp h
  exact ⟨location, resolve_or_missing hfollow, hhold, rfl,
    resolve_set hfollow content hhold fun _ => rfl⟩

end path

end Stencil.FileTree
