import Mathlib.Data.List.DropRight
import Stencil.File.Path
import Stencil.Proofs.Text.Cut

/-!
# Steps of a path

A path is walked part by part, wherever it is cut. So the steps to the parent of a path with a name
come first among its own, and another name in the place of that one is one other step behind them.
-/

namespace Stencil.Path

open Text

/-! ## Parts -/

/-- The step that a part of a path is; an empty part is none. -/
def stepOf? (part : Text) : Option Step :=
  if part = [] then none
  else if part = ['.'] then some .current
  else if part = ['.', '.'] then some .parent
  else some (.name part)

/-- The steps along the parts of a text. -/
def walked (text : Text) : List Step := (cut '/' text).filterMap stepOf?

variable {path : Path} {name part : Text} {parts kept : List Text}

theorem slash_not_mem_walked (text : Text) : Step.slash ∉ walked text := by
  intro hslash
  obtain ⟨part, -, hstep⟩ := List.mem_filterMap.mp hslash
  rw [stepOf?] at hstep
  split at hstep
  · exact absurd hstep (by simp)
  · split at hstep
    · exact absurd hstep (by simp)
    · split at hstep <;> exact absurd hstep (by simp)

theorem exists_stepOf?_eq (h : part ≠ []) : ∃ step, stepOf? part = some step := by
  rw [stepOf?, if_neg h]
  split
  · exact ⟨_, rfl⟩
  · split <;> exact ⟨_, rfl⟩

/-- The steps of a path are those along its parts, and the slash at its end. -/
theorem steps_eq (path : Path) :
    path.steps = walked path.text ++ if path.text.getLast? = some '/' then [.slash] else [] := by
  have hwalked : ∀ parts : List Text, ((parts.filter (· != [])).map fun part =>
      if part == ['.'] then Step.current
      else if part == ['.', '.'] then Step.parent
      else Step.name part) = parts.filterMap stepOf? := by
    intro parts
    induction parts with
    | nil => rfl
    | cons part rest ih =>
      by_cases hpart : part = []
      · simpa [hpart, stepOf?] using ih
      · rw [List.filter_cons_of_pos (by simpa using hpart), List.map_cons, ih, List.filterMap_cons,
          stepOf?, if_neg hpart]
        by_cases hcurrent : part = ['.']
        · simp [hcurrent]
        · by_cases hparent : part = ['.', '.'] <;> simp [hcurrent, hparent]
  rw [steps, hwalked]
  split
  · rfl
  · exact (List.append_nil _).symm

theorem walked_append_cons (front back : Text) :
    walked (front ++ '/' :: back) = walked front ++ walked back := by
  rw [walked, cut_append_cons, List.filterMap_append]
  rfl

theorem walked_join (h : ∀ part ∈ parts, '/' ∉ part) :
    walked (join '/' parts) = parts.filterMap stepOf? := by
  cases parts with
  | nil => rfl
  | cons part rest => rw [walked, cut_join (List.cons_ne_nil part rest) h]

/-- A name is one step. -/
theorem exists_walked_eq (hname : name ≠ []) (hslash : '/' ∉ name) :
    ∃ step, step ≠ .slash ∧ walked name = [step] := by
  obtain ⟨step, hstep⟩ := exists_stepOf?_eq hname
  have hwalked : walked name = [step] := by
    rw [walked, cut_of_not_mem hslash, List.filterMap_cons, hstep]
    rfl
  refine ⟨step, ?_, hwalked⟩
  rintro rfl
  exact slash_not_mem_walked name (by simp [hwalked])

/-! ## The parent -/

/-- A part of a path holds no slash, and nothing that the path does not hold. -/
theorem of_mem_parts (h : part ∈ path.headAndParts.2) : '/' ∉ part ∧ part ⊆ path.text := by
  rw [headAndParts] at h
  split at h
  · next rest htext =>
    obtain ⟨hslash, hsubset⟩ := of_mem_cut h
    exact ⟨hslash, htext ▸ List.subset_cons_of_subset _ hsubset⟩
  · exact absurd h List.not_mem_nil
  · next rest htext =>
    rcases List.mem_cons.mp h with rfl | h
    · exact ⟨List.not_mem_nil, List.nil_subset _⟩
    · obtain ⟨hslash, hsubset⟩ := of_mem_cut h
      exact ⟨hslash, htext ▸ List.subset_cons_of_subset _ (List.subset_cons_of_subset _ hsubset)⟩
  · exact of_mem_cut h

theorem slash_not_mem_part (h : part ∈ path.headAndParts.2) : '/' ∉ part := (of_mem_parts h).1

/-- The first parts of a path are walked one after the other. -/
theorem walked_of_isPrefix (h : kept <+: path.headAndParts.2) :
    walked (path.headAndParts.1 ++ join '/' kept) =
      walked path.headAndParts.1 ++ kept.filterMap stepOf? := by
  have hslash : ∀ part ∈ kept, '/' ∉ part := fun part hpart =>
    slash_not_mem_part (h.subset hpart)
  rw [headAndParts] at h ⊢
  split at h
  · have hwalked := walked_append_cons [] (join '/' kept)
    rw [walked_join hslash] at hwalked
    exact hwalked
  · obtain rfl := List.prefix_nil.mp h
    rfl
  · cases kept with
    | nil => rfl
    | cons first kept =>
      obtain ⟨rfl, -⟩ := List.cons_prefix_cons.mp h
      cases kept with
      | nil => rfl
      | cons second kept =>
        rw [join_cons_cons, List.nil_append, walked_append_cons,
          walked_join fun part hpart => hslash part (List.mem_cons_of_mem _ hpart)]
        rfl
  · exact walked_join hslash

/-- What a path begins with and its parts make up its text. -/
theorem text_eq (path : Path) :
    path.text = path.headAndParts.1 ++ join '/' path.headAndParts.2 := by
  rw [headAndParts]
  split
  · next rest htext => rw [join_cut, htext]; rfl
  · next htext => rw [htext]; rfl
  · next rest htext =>
    have hjoin : join '/' ([] :: cut '/' rest) = '/' :: rest := by
      cases hcut : cut '/' rest with
      | nil => exact absurd hcut (cut_ne_nil '/' rest)
      | cons first others => rw [join_cons_cons, ← hcut, join_cut, List.nil_append]
    rw [hjoin, htext]
    rfl
  · exact (join_cut '/' path.text).symm

theorem dropIdleEnd_eq (parts : List Text) : dropIdleEnd parts = parts.rdropWhile isIdle := rfl

theorem dropIdleEnd_isPrefix (parts : List Text) : dropIdleEnd parts <+: parts :=
  List.rdropWhile_prefix isIdle parts

/-- The parent of a path is what the path begins with. -/
theorem parent_isPrefix (path : Path) : path.parent.text <+: path.text := by
  have hkept : dropIdleEnd (dropIdleEnd path.headAndParts.2).dropLast <+: path.headAndParts.2 :=
    (dropIdleEnd_isPrefix _).trans ((List.dropLast_prefix _).trans (dropIdleEnd_isPrefix _))
  rw [text_eq path, parent, List.prefix_append_right_inj]
  exact join_isPrefix '/' hkept

/-- The last part of a path that says anything is a name, and the parent is what stands before. -/
structure EndsInName (path : Path) (front : List Text) (name : Text) (back : List Text) : Prop where
  parts_eq : path.headAndParts.2 = front ++ name :: back
  not_idle : isIdle name = false
  not_parent : name ≠ ['.', '.']
  idle_behind : ∀ part ∈ back, isIdle part = true
  parent_text : path.parent.text = path.headAndParts.1 ++ join '/' (dropIdleEnd front)

namespace EndsInName

variable {front back : List Text}

theorem ne_nil (h : EndsInName path front name back) : name ≠ [] := by
  rintro rfl
  exact absurd h.not_idle (by simp [isIdle])

theorem slash_not_mem (h : EndsInName path front name back) : '/' ∉ name :=
  @slash_not_mem_part path name (by simp [h.parts_eq])

end EndsInName

/-- A path with a file name ends in it. -/
theorem exists_endsInName (h : path.fileName? = some name) :
    ∃ front back, EndsInName path front name back := by
  rw [fileName?] at h
  split at h
  · next part hlast =>
    obtain ⟨hparent, hname⟩ := Option.ite_none_left_eq_some.mp h
    obtain rfl := Option.some.inj hname
    obtain ⟨front, hfront⟩ := List.getLast?_eq_some_iff.mp hlast
    have hsplit : dropIdleEnd path.headAndParts.2 ++ path.headAndParts.2.rtakeWhile isIdle =
        path.headAndParts.2 := List.rdropWhile_append_rtakeWhile
    refine ⟨front, path.headAndParts.2.rtakeWhile isIdle, ?_, ?_, by simpa using hparent,
      fun _ => List.mem_rtakeWhile_imp, ?_⟩
    · rw [← List.singleton_append, ← List.append_assoc, ← hfront, hsplit]
    · have hidle := List.rdropWhile_last_not isIdle path.headAndParts.2
        (by simp [← dropIdleEnd_eq, hfront])
      simpa [← dropIdleEnd_eq, hfront] using hidle
    · rw [parent]
      simp only [hfront, List.dropLast_concat]
  · exact absurd h (by simp)

/-- The walk along a path with a name goes through its parent, and on from there. -/
theorem exists_steps_eq (h : path.fileName? = some name) :
    ∃ rest, rest ≠ [] ∧ path.steps = walked path.parent.text ++ rest := by
  obtain ⟨front, back, hends⟩ := exists_endsInName h
  have hparts := hends.parts_eq
  obtain ⟨step, hstep⟩ := exists_stepOf?_eq hends.ne_nil
  obtain ⟨idle, hfront⟩ := dropIdleEnd_isPrefix front
  have hkept : dropIdleEnd front <+: path.headAndParts.2 := by
    rw [hparts]
    exact (dropIdleEnd_isPrefix front).trans (List.prefix_append front _)
  have hwhole := walked_of_isPrefix (List.prefix_refl path.headAndParts.2)
  rw [← text_eq, hparts, ← hfront, List.append_assoc, List.filterMap_append, ← List.append_assoc,
    ← walked_of_isPrefix hkept, ← hends.parent_text] at hwhole
  refine ⟨(idle ++ name :: back).filterMap stepOf? ++
    if path.text.getLast? = some '/' then [.slash] else [], ?_, ?_⟩
  · simp [hstep]
  · rw [steps_eq, hwhole, List.append_assoc]

theorem isAbsolute_parent (h : path.fileName? = some name) :
    path.parent.isAbsolute = path.isAbsolute := by
  obtain ⟨front, back, hends⟩ := exists_endsInName h
  obtain ⟨rest, hrest⟩ := path.parent_isPrefix
  rw [isAbsolute, isAbsolute, ← hrest]
  cases hempty : path.parent.text with
  | cons c others => rfl
  | nil =>
    have hparent := hends.parent_text
    rw [hempty] at hparent hrest
    have hhead := (List.append_eq_nil_iff.mp hparent.symm).1
    rw [headAndParts] at hhead
    split at hhead
    · exact absurd hhead (by simp)
    · exact absurd hhead (by simp)
    · exact absurd hhead (by simp)
    · next hslash _ _ =>
      rw [List.nil_append] at hrest ⊢
      cases rest with
      | nil => rfl
      | cons c others =>
        have hc : c ≠ '/' := fun heq => hslash others (by rw [← hrest, heq])
        simp [hc]

/-! ## Another name -/

theorem isAbsolute_append (base : Path) (h : path.isAbsolute = false) :
    (base.append path).isAbsolute = base.isAbsolute := by
  obtain ⟨text⟩ := base
  rw [append]
  cases text with
  | nil =>
    rw [if_pos (Or.inr rfl), h]
    rfl
  | cons c rest =>
    rw [if_neg (by simp [h])]
    split <;> rfl

theorem walked_append (base : Path) (h : path.isAbsolute = false) :
    walked (base.append path).text = walked base.text ++ walked path.text := by
  rw [append]
  by_cases hempty : base.text = []
  · rw [if_pos (Or.inr hempty), hempty]
    rfl
  · rw [if_neg (by simp [h, hempty])]
    split
    · next hlast =>
      obtain ⟨front, hfront⟩ := List.getLast?_eq_some_iff.mp hlast
      have hclosed : walked (front ++ ['/']) = walked front ++ [] := walked_append_cons front []
      rw [hfront, hclosed, List.append_nil, List.append_assoc, List.singleton_append,
        walked_append_cons]
    · exact walked_append_cons base.text path.text

theorem getLast?_append (base : Path) (h : path.text ≠ []) :
    (base.append path).text.getLast? = path.text.getLast? := by
  rw [append]
  split
  · rfl
  · split
    · exact List.getLast?_append_of_ne_nil _ h
    · rw [List.getLast?_append_of_ne_nil _ (List.cons_ne_nil _ _), List.getLast?_cons_of_ne_nil h]

/-- Another name is one more step behind those to the parent. -/
theorem steps_withFileName (path : Path) (hname : name ≠ []) (hslash : '/' ∉ name) :
    (path.withFileName name).isAbsolute = path.parent.isAbsolute ∧
      ∃ step, step ≠ .slash ∧
        (path.withFileName name).steps = walked path.parent.text ++ [step] := by
  have hrelative : (Path.mk name).isAbsolute = false := by
    cases name with
    | nil => rfl
    | cons c rest =>
      have hc : c ≠ '/' := fun heq => hslash (by simp [heq])
      simp [isAbsolute, hc]
  obtain ⟨step, hstep, hwalked⟩ := exists_walked_eq hname hslash
  refine ⟨isAbsolute_append path.parent hrelative, step, hstep, ?_⟩
  have hlast : ¬ (path.withFileName name).text.getLast? = some '/' := by
    rw [withFileName, getLast?_append path.parent hname]
    exact fun hlast => hslash (List.mem_of_getLast? hlast)
  rw [steps_eq, if_neg hlast, List.append_nil, withFileName, walked_append path.parent hrelative,
    hwalked]

end Stencil.Path
