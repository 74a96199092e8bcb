import Mathlib
import Stencil.Expansion.Assembler
import Stencil.Proofs.Expansion.Word
import Stencil.Proofs.Text.Runs

/-!
# The order of columns

The columns of a row are replaced one after the other, and each pass sees what the passes in front
of it have put in. Where the columns are words and no value holds one of them as a word, a pass
neither finds a column in what was put in nor makes one with its neighbours: the passes work on each
word of the template on its own, so that they come to one replacement of all the columns at once,
which no longer depends on their order.
-/

namespace Stencil

open Text

/-- A text cut into its longest runs of ASCII letters and digits and, one by one, its other
characters. -/
def runs (text : Text) : List Text := text.splitBy fun c d => c.isAlphanum && d.isAlphanum

/-- The words of a text are its longest runs of ASCII letters and digits. -/
def words (text : Text) : List Text := (runs text).filter (·.all Char.isAlphanum)

/-- Replace all words at once that name a column, each by the value of its column. -/
def replaceTogether (columns : List (Text × Text)) (text : Text) : Text :=
  (runs text).flatMap fun run => (columns.lookup run).getD run

/-- The items at some positions, in the order of the positions. -/
def rearrange {α : Type} (order : List Nat) (items : List α) : List α :=
  order.filterMap (items[·]?)

namespace Table

/-- No value of the table can be mistaken for a column. -/
structure IsUnambiguous (table : Table) : Prop where
  distinct : table.header.Nodup
  alphanumeric : ∀ column ∈ table.header, ∀ c ∈ column, c.isAlphanum = true
  apart : ∀ row ∈ table.rows, ∀ value ∈ row, ∀ word ∈ words value, word ∉ table.header

/-- The table with its columns in another order. -/
def rearranged (order : List Nat) (table : Table) : Table :=
  ⟨rearrange order table.header, table.rows.map (rearrange order)⟩

end Table

/-! ## Runs -/

theorem runs_append {left right : Text}
    (h : ∀ c ∈ left.getLast?, ∀ d ∈ right.head?, (c.isAlphanum && d.isAlphanum) = false) :
    runs (left ++ right) = runs left ++ runs right :=
  List.splitBy_append h

@[simp] theorem runs_singleton (c : Char) : runs [c] = [[c]] :=
  List.splitBy_of_isChain (by simp) (by simp)

/-- Letters and digits that nothing parts are one run. -/
theorem runs_of_alphanumeric {word : Text} (hne : word ≠ [])
    (h : ∀ c ∈ word, c.isAlphanum = true) : runs word = [word] := by
  refine List.splitBy_of_isChain hne (List.Pairwise.isChain ?_)
  refine List.pairwise_of_forall_mem_list fun c hc d hd => ?_
  rw [h c hc, h d hd, Bool.and_self]

theorem runs_cons {c : Char} (rest : Text) (h : c.isAlphanum = false) :
    runs (c :: rest) = [c] :: runs rest := by
  have hseam := @runs_append [c] rest (by simp [h])
  rwa [List.singleton_append, runs_singleton, List.singleton_append] at hseam

/-- A text behind which no letter or digit follows is cut on its own. -/
theorem runs_append_of_head? (left : Text) {right : Text}
    (h : ∀ d ∈ right.head?, d.isAlphanum = false) :
    runs (left ++ right) = runs left ++ runs right :=
  runs_append fun c _ d hd => by rw [h d hd, Bool.and_false]

/-- A text is empty, begins with a character that is no letter or digit, or begins with a word. -/
theorem runs_induction {motive : Text → Prop} (nil : motive [])
    (other : ∀ c rest, c.isAlphanum = false → motive rest → motive (c :: rest))
    (word : ∀ run rest, run ≠ [] → (∀ c ∈ run, c.isAlphanum = true) →
      (∀ c ∈ rest.head?, c.isAlphanum = false) → motive rest → motive (run ++ rest))
    (text : Text) : motive text := by
  induction hlength : text.length using Nat.strong_induction_on generalizing text with
  | h length ih =>
    subst hlength
    cases text with
    | nil => exact nil
    | cons c rest =>
      cases hc : c.isAlphanum with
      | false => exact other c rest hc (ih rest.length (by simp) rest rfl)
      | true =>
        have hsplit := List.takeWhile_append_dropWhile (p := Char.isAlphanum) (l := c :: rest)
        have hne : (c :: rest).takeWhile Char.isAlphanum ≠ [] := by simp [hc]
        rw [← hsplit]
        refine word _ _ hne (fun d hd => List.mem_takeWhile_imp hd) head?_dropWhile
          (ih _ ?_ _ rfl)
        have hlength := congrArg List.length hsplit
        have hpos := List.length_pos_iff.mpr hne
        rw [List.length_append] at hlength
        omega

theorem runs_word_append {word rest : Text} (hne : word ≠ [])
    (h : ∀ c ∈ word, c.isAlphanum = true) (hrest : ∀ c ∈ rest.head?, c.isAlphanum = false) :
    runs (word ++ rest) = word :: runs rest := by
  rw [runs_append_of_head? word hrest, runs_of_alphanumeric hne h, List.singleton_append]

/-- A run is a word, or a single character that is no letter or digit. -/
theorem of_mem_runs {text run : Text} (h : run ∈ runs text) :
    (run ≠ [] ∧ ∀ c ∈ run, c.isAlphanum = true) ∨ ∃ c, run = [c] ∧ c.isAlphanum = false := by
  induction text using runs_induction with
  | nil => exact absurd h List.not_mem_nil
  | other c rest hc ih =>
    rw [runs_cons rest hc] at h
    rcases List.mem_cons.mp h with rfl | h
    · exact Or.inr ⟨c, rfl, hc⟩
    · exact ih h
  | word word rest hne hword hrest ih =>
    rw [runs_word_append hne hword hrest] at h
    rcases List.mem_cons.mp h with rfl | h
    · exact Or.inl ⟨hne, hword⟩
    · exact ih h

/-- Runs that are rewritten stay apart if only words are. -/
theorem head?_flatMap_runs {f : Text → Text} {text : Text}
    (hf : ∀ c, c.isAlphanum = false → f [c] = [c]) (h : ∀ c ∈ text.head?, c.isAlphanum = false) :
    ∀ c ∈ ((runs text).flatMap f).head?, c.isAlphanum = false := by
  cases text with
  | nil => simp [runs]
  | cons c rest =>
    have hc := h c rfl
    rw [runs_cons rest hc, List.flatMap_cons, hf c hc]
    simpa using hc

/-- A text is left as it is if each of its runs is. -/
theorem flatMap_runs_eq_self {f : Text → Text} {text : Text} (hf : ∀ run ∈ runs text, f run = run) :
    (runs text).flatMap f = text := by
  have hkept : ∀ run ∈ runs text, f run = id run := hf
  rw [List.flatMap_congr hkept, List.flatMap_id, runs, List.flatten_splitBy]

/-- The runs of a text whose words are rewritten are those of what comes of each of its runs. -/
theorem runs_flatMap_runs {f : Text → Text} (hf : ∀ c, c.isAlphanum = false → f [c] = [c])
    (text : Text) : runs ((runs text).flatMap f) = (runs text).flatMap fun run => runs (f run) := by
  induction text using runs_induction with
  | nil => rfl
  | other c rest hc ih =>
    rw [runs_cons rest hc, List.flatMap_cons, List.flatMap_cons, hf c hc, List.singleton_append,
      runs_cons _ hc, ih, runs_singleton, List.singleton_append]
  | word word rest hne hword hrest ih =>
    rw [runs_word_append hne hword hrest, List.flatMap_cons, List.flatMap_cons,
      runs_append_of_head? _ (head?_flatMap_runs hf hrest), ih]

/-! ## One column -/

/-- A word that is replaced is a run of the text. -/
theorem eq_of_standsFree {word run before front back rest after : Text}
    (hword : ∀ c ∈ word, c.isAlphanum = true) (hrun : ∀ c ∈ run, c.isAlphanum = true)
    (hrest : ∀ c ∈ rest.head?, c.isAlphanum = false) (hsplit : run = front ++ back)
    (hback : back ≠ []) (hafter : back ++ rest = word ++ after)
    (hfree : StandsFree (before ++ front) after) : run = word := by
  subst hsplit
  obtain ⟨hleft, hright⟩ := hfree
  have hfront : front = [] := by
    rcases List.eq_nil_or_concat' front with rfl | ⟨front, c, rfl⟩
    · rfl
    · have hlast := hleft c (by rw [← List.append_assoc, List.getLast?_concat]; rfl)
      rw [hrun c (by simp)] at hlast
      exact absurd hlast (by simp)
  rw [hfront, List.nil_append]
  rcases List.append_eq_append_iff.mp hafter with ⟨more, rfl, hmore⟩ | ⟨more, rfl, hmore⟩
  · -- The word would go on behind the run.
    cases more with
    | nil => rw [List.append_nil]
    | cons c more =>
      have hc := hrest c (by rw [hmore]; rfl)
      rw [hword c (by simp)] at hc
      exact absurd hc (by simp)
  · -- The run would go on behind the word.
    cases more with
    | nil => rw [List.append_nil]
    | cons c more =>
      have hc := hright c (by rw [hmore]; rfl)
      rw [hrun c (by simp)] at hc
      exact absurd hc (by simp)

/-- Replacing a word replaces the runs that are this word. -/
theorem rewrites_runs {word : Text} (nonempty : word ≠ [])
    (hword : ∀ c ∈ word, c.isAlphanum = true) (value text : Text) {before : Text}
    (hseam : ∀ c ∈ before.getLast?, ∀ d ∈ text.head?, (c.isAlphanum && d.isAlphanum) = false) :
    Rewrites word value before text
      ((runs text).flatMap fun run => if run = word then value else run) := by
  induction text using runs_induction generalizing before with
  | nil => exact .done before
  | other c rest hc ih =>
    have hother : [c] ≠ word := fun h => by
      rw [hword c (h ▸ List.mem_singleton_self c)] at hc
      exact absurd hc (by simp)
    rw [runs_cons rest hc, List.flatMap_cons, if_neg hother, List.singleton_append]
    refine .kept (fun after hafter => ?_) (ih (by simp [hc]))
    obtain ⟨d, more, rfl⟩ := List.exists_cons_of_ne_nil nonempty
    obtain ⟨rfl, -⟩ := List.cons.inj hafter
    exact absurd (hword c List.mem_cons_self) (by simp [hc])
  | word run rest hne hrun hrest ih =>
    rw [runs_word_append hne hrun hrest, List.flatMap_cons]
    have hnext : ∀ before : Text, ∀ c ∈ before.getLast?, ∀ d ∈ rest.head?,
        (c.isAlphanum && d.isAlphanum) = false := by
      intro before c _ d hd
      rw [hrest d hd, Bool.and_false]
    by_cases heq : run = word
    · subst heq
      rw [if_pos rfl]
      refine .replaced ⟨fun c hc => ?_, hrest⟩ (ih (hnext _))
      obtain ⟨d, more, rfl⟩ := List.exists_cons_of_ne_nil nonempty
      simpa [hrun d List.mem_cons_self] using hseam c hc d rfl
    · rw [if_neg heq]
      refine Rewrites.keep run (fun front back after hsplit hback hafter hfree => ?_) (ih (hnext _))
      exact heq (eq_of_standsFree hword hrun hrest hsplit hback hafter hfree)

/-- A column is replaced run by run. -/
theorem replaceWord_eq_flatMap {word : Text} (hword : ∀ c ∈ word, c.isAlphanum = true)
    (text value : Text) :
    replaceWord text word value =
      (runs text).flatMap fun run => if run = word then value else run := by
  by_cases hempty : word = []
  · subst hempty
    exact (flatMap_runs_eq_self fun run hrun => if_neg (List.ne_nil_of_mem_splitBy hrun)).symm
  · exact (rewrites_runs hempty hword value text (by simp)).replaceWord_eq hempty

/-! ## All columns -/

/-- Where no word of a text names a column, nothing is replaced. -/
theorem replaceTogether_of_not_mem {columns : List (Text × Text)} {text : Text}
    (hcolumns : ∀ column ∈ columns, ∀ c ∈ column.1, c.isAlphanum = true)
    (h : ∀ word ∈ words text, word ∉ columns.map Prod.fst) :
    replaceTogether columns text = text := by
  refine flatMap_runs_eq_self fun run hrun => ?_
  have hnone : columns.lookup run = none := by
    rw [List.lookup_eq_none_iff]
    intro column hcolumn
    refine bne_iff_ne.mpr fun hname => ?_
    subst hname
    have hword := List.all_eq_true.mpr (hcolumns column hcolumn)
    exact h column.1 (List.mem_filter.mpr ⟨hrun, hword⟩) (List.mem_map_of_mem hcolumn)
  rw [hnone, Option.getD_none]

/-- A pass in front of a replacement takes its column into that replacement. -/
theorem replaceTogether_replaceWord {column : Text × Text} {columns : List (Text × Text)}
    (template : Text) (hcolumns : ∀ other ∈ column :: columns, ∀ c ∈ other.1, c.isAlphanum = true)
    (hapart : ∀ word ∈ words column.2, word ∉ columns.map Prod.fst) :
    replaceTogether columns (replaceWord template column.1 column.2) =
      replaceTogether (column :: columns) template := by
  obtain ⟨hcolumn, hothers⟩ := List.forall_mem_cons.mp hcolumns
  have hsingle : ∀ c, c.isAlphanum = false →
      (if [c] = column.1 then column.2 else [c]) = [c] := by
    intro c hc
    refine if_neg fun h => ?_
    rw [hcolumn c (h ▸ List.mem_singleton_self c)] at hc
    exact absurd hc (by simp)
  rw [replaceWord_eq_flatMap hcolumn, replaceTogether, runs_flatMap_runs hsingle,
    List.flatMap_assoc, replaceTogether]
  refine List.flatMap_congr fun run hrun => ?_
  by_cases hname : run = column.1
  · have hvalue := replaceTogether_of_not_mem hothers hapart
    rw [if_pos hname, hname, List.lookup_cons_self, Option.getD_some]
    exact hvalue
  · have halone : runs run = [run] := by
      rcases of_mem_runs hrun with ⟨hne, hword⟩ | ⟨c, rfl, -⟩
      · exact runs_of_alphanumeric hne hword
      · exact runs_singleton c
    rw [if_neg hname, halone, List.flatMap_singleton, List.lookup_cons, beq_false_of_ne hname]

/-- The passes of all columns come to one replacement. -/
theorem foldl_replaceWord_eq {columns : List (Text × Text)} (template : Text)
    (hcolumns : ∀ column ∈ columns, ∀ c ∈ column.1, c.isAlphanum = true)
    (hapart : ∀ column ∈ columns, ∀ word ∈ words column.2, word ∉ columns.map Prod.fst) :
    columns.foldl (fun text column => replaceWord text column.1 column.2) template =
      replaceTogether columns template := by
  induction columns generalizing template with
  | nil => exact (replaceTogether_of_not_mem hcolumns (by simp)).symm
  | cons column columns ih =>
    have hothers : ∀ other ∈ column :: columns, ∀ word ∈ words other.2,
        word ∉ columns.map Prod.fst := fun other hother word hword hmem =>
      hapart other hother word hword (List.mem_cons_of_mem _ hmem)
    obtain ⟨hcolumn, hrest⟩ := List.forall_mem_cons.mp hothers
    rw [List.foldl_cons, ih _ (List.forall_mem_cons.mp hcolumns).2 hrest,
      replaceTogether_replaceWord template hcolumns hcolumn]

/-! ## Their order -/

/-- Where the keys are distinct, their order does not matter for a lookup. -/
theorem lookup_perm {columns others : List (Text × Text)} (h : columns.Perm others)
    (hdistinct : (columns.map Prod.fst).Nodup) (word : Text) :
    columns.lookup word = others.lookup word := by
  induction h with
  | nil => rfl
  | cons column h ih =>
    rw [List.lookup_cons, List.lookup_cons, ih (List.nodup_cons.mp hdistinct).2]
  | swap first second rest =>
    have hne : second.1 ≠ first.1 := by
      have hfirst := (List.nodup_cons.mp hdistinct).1
      exact fun heq => hfirst (heq ▸ List.mem_cons_self)
    obtain ⟨⟨name, value⟩, ⟨other, field⟩⟩ := first, second
    by_cases hword : word = name
    · have hother : (word == other) = false := beq_false_of_ne (hword ▸ hne.symm)
      simp [List.lookup_cons, hword ▸ hother, hword]
    · simp [List.lookup_cons, beq_false_of_ne hword]
  | trans hleft hright ihleft ihright =>
    have hmiddle := (hleft.map Prod.fst).nodup_iff.mp hdistinct
    rw [ihleft hdistinct, ihright hmiddle]

theorem replaceTogether_perm {columns others : List (Text × Text)} (h : columns.Perm others)
    (hdistinct : (columns.map Prod.fst).Nodup) (text : Text) :
    replaceTogether columns text = replaceTogether others text :=
  List.flatMap_congr fun run _ => by rw [lookup_perm h hdistinct run]

section Rearranging

variable {α β : Type} {order : List Nat}

theorem rearrange_range (items : List α) : rearrange (List.range items.length) items = items := by
  induction items using List.reverseRecOn with
  | nil => rfl
  | append_singleton items item ih =>
    have hinit : ∀ position ∈ List.range items.length,
        (items ++ [item])[position]? = items[position]? := fun position h =>
      List.getElem?_append_left (List.mem_range.mp h)
    rw [rearrange, List.length_append, List.length_singleton, List.range_succ,
      List.filterMap_append, List.filterMap_congr hinit]
    rw [rearrange] at ih
    rw [ih]
    simp

/-- Positions that are those of all items bring all items into another order. -/
theorem rearrange_perm {items : List α} (h : order.Perm (List.range items.length)) :
    (rearrange order items).Perm items := by
  have hperm := h.filterMap (items[·]?)
  rwa [show (List.range items.length).filterMap (items[·]?) = items from rearrange_range items]
    at hperm

@[simp] theorem rearrange_cons (position : Nat) (order : List Nat) (items : List α) :
    rearrange (position :: order) items = items[position]?.toList ++ rearrange order items := by
  rw [rearrange, List.filterMap_cons]
  cases items[position]? <;> rfl

/-- Columns and fields that are rearranged alike stay together. -/
theorem zip_rearrange {left : List α} {right : List β} (h : left.length = right.length) :
    (rearrange order left).zip (rearrange order right) = rearrange order (left.zip right) := by
  induction order with
  | nil => rfl
  | cons position order ih =>
    rw [rearrange_cons, rearrange_cons, rearrange_cons]
    by_cases hposition : position < left.length
    · have hzip : position < (left.zip right).length := by
        rw [List.length_zip]
        omega
      rw [List.getElem?_eq_getElem hposition, List.getElem?_eq_getElem (h ▸ hposition),
        List.getElem?_eq_getElem hzip, List.getElem_zip]
      exact congrArg _ ih
    · rw [List.getElem?_eq_none (by omega), List.getElem?_eq_none (by omega),
        List.getElem?_eq_none (by rw [List.length_zip]; omega)]
      exact ih

end Rearranging

namespace Table

variable {table : Table} {row : List Text}

/-- Some columns of an unambiguous table are replaced together. -/
theorem IsUnambiguous.foldl_eq (h : table.IsUnambiguous) (hrow : row ∈ table.rows)
    {columns : List (Text × Text)} (hcolumns : columns ⊆ table.header.zip row) (template : Text) :
    columns.foldl (fun text column => replaceWord text column.1 column.2) template =
      replaceTogether columns template := by
  have hmem : ∀ column ∈ columns, column.1 ∈ table.header ∧ column.2 ∈ row :=
    fun column hcolumn => List.of_mem_zip (hcolumns hcolumn)
  apply foldl_replaceWord_eq
  · intro column hcolumn
    exact h.alphanumeric _ (hmem column hcolumn).1
  · intro column hcolumn word hword hname
    obtain ⟨other, hother, rfl⟩ := List.mem_map.mp hname
    exact h.apart row hrow _ (hmem column hcolumn).2 _ hword (hmem other hother).1

/-- In another order of the columns, each row has the same copy of the template. -/
theorem IsUnambiguous.expandRow_rearrange (h : table.IsUnambiguous) {order : List Nat}
    (horder : order.Perm (List.range table.header.length)) (hrow : row ∈ table.rows)
    (hwidth : row.length = table.header.length) (indexToken template : Text) (index : Nat) :
    expandRow (rearrange order table.header) indexToken template index (rearrange order row) =
      expandRow table.header indexToken template index row := by
  have hlength : (table.header.zip row).length = table.header.length := by
    rw [List.length_zip, hwidth, Nat.min_self]
  have hperm : (rearrange order (table.header.zip row)).Perm (table.header.zip row) :=
    rearrange_perm (by rwa [hlength])
  have hkeys : ((rearrange order (table.header.zip row)).map Prod.fst).Nodup := by
    refine (hperm.map Prod.fst).nodup_iff.mpr ?_
    rw [List.map_fst_zip (Nat.le_of_eq hwidth.symm)]
    exact h.distinct
  rw [expandRow, expandRow, zip_rearrange hwidth.symm, h.foldl_eq hrow hperm.subset,
    h.foldl_eq hrow (List.Subset.refl _), replaceTogether_perm hperm hkeys]

/-- The columns of an unambiguous table are replaced all at once, so that it does not matter for
the copies of a template in which order they stand. -/
theorem expand_rearranged (h : table.IsUnambiguous) (template indexToken : Text) :
    (∀ row ∈ table.rows,
      (table.header.zip row).foldl (fun text column => replaceWord text column.1 column.2)
          template =
        replaceTogether (table.header.zip row) template) ∧
      ((∀ row ∈ table.rows, row.length = table.header.length) →
        ∀ order : List Nat, order.Perm (List.range table.header.length) →
          expand (table.rearranged order) template indexToken =
            expand table template indexToken) := by
  refine ⟨fun row hrow => h.foldl_eq hrow (List.Subset.refl _) template, ?_⟩
  intro hwidth order horder
  have hrows : (table.rows.map (rearrange order)).mapIdx
        (expandRow (rearrange order table.header) indexToken template) =
      table.rows.mapIdx (expandRow table.header indexToken template) := by
    refine List.ext_getElem (by simp) fun index hleft hright => ?_
    rw [List.length_mapIdx] at hright
    have hrow := List.getElem_mem hright
    rw [List.getElem_mapIdx, List.getElem_mapIdx, List.getElem_map]
    exact h.expandRow_rearrange horder hrow (hwidth _ hrow) indexToken template index
  exact congrArg List.flatten hrows

/-- Values may be empty, end in punctuation and hold words that columns begin with. -/
theorem expand_rearranged_cycled :
    let table : Table := ⟨[['A'], ['B', '1'], ['C']],
      [[['(', 'B'], [], ['C', 'C', '-', 'é']], [['1', '-'], ['A', 'A'], ['_']]]⟩
    let template : Text := ['A', '-', 'B', '1', '_', 'C', 'A', ';', 'C', '#']
    table.IsUnambiguous ∧ (∀ row ∈ table.rows, row.length = table.header.length) ∧
      [2, 0, 1].Perm (List.range table.header.length) ∧
      (∀ row ∈ table.rows,
        (table.header.zip row).foldl (fun text column => replaceWord text column.1 column.2)
            template =
          replaceTogether (table.header.zip row) template) ∧
      expand (table.rearranged [2, 0, 1]) template ['#'] = expand table template ['#'] ∧
      expand table template ['#'] = ['(', 'B', '-', '_', 'C', 'A', ';', 'C', 'C', '-', 'é', '0',
        '1', '-', '-', 'A', 'A', '_', 'C', 'A', ';', '_', '1'] := by
  intro table template
  have hunambiguous : table.IsUnambiguous := ⟨by decide, by simp [table], by decide⟩
  have hwidth : ∀ row ∈ table.rows, row.length = table.header.length := by decide
  have horder : [2, 0, 1].Perm (List.range table.header.length) := by decide
  obtain ⟨htogether, hrearranged⟩ := expand_rearranged hunambiguous template ['#']
  exact ⟨hunambiguous, hwidth, horder, htogether, hrearranged hwidth _ horder, by cbv⟩

end Table

end Stencil
