import Mathlib.Data.List.Infix
import Stencil.Proofs.Text.Lines
import Stencil.Proofs.Text.Runs
import Stencil.Table

/-!
# Fields of a row

A row is cut at the semicolons that an even number of quotation marks precedes, and the blanks
around a field are dropped. A piece of a row can stand between such semicolons if it is closed: its
marks come in pairs, and its own semicolons are quoted. Blanks around a piece change nothing about
that, and closed pieces that are joined are cut apart again where they were joined.
-/

namespace Stencil

namespace Text

/-- Neither the first nor the last character is a blank. -/
structure IsTrimmed (text : Text) : Prop where
  head : ∀ c ∈ text.head?, isBlank c = false
  last : ∀ c ∈ text.getLast?, isBlank c = false

instance (text : Text) : Decidable (IsTrimmed text) :=
  decidable_of_iff (text.head?.any isBlank = false ∧ text.getLast?.any isBlank = false)
    ⟨fun h => ⟨(Option.any_eq_false _ _).mp h.1, (Option.any_eq_false _ _).mp h.2⟩,
      fun h => ⟨(Option.any_eq_false _ _).mpr h.head, (Option.any_eq_false _ _).mpr h.last⟩⟩

/-- The text is a value with some blanks around it. -/
def Pads (value text : Text) : Prop :=
  ∃ lead trail, (∀ c ∈ lead, isBlank c = true) ∧ (∀ c ∈ trail, isBlank c = true) ∧
    text = lead ++ value ++ trail

/-- Trimming takes the blanks around a value off. -/
theorem Pads.trim_eq {value text : Text} (h : Pads value text) (hvalue : IsTrimmed value) :
    trim isBlank text = value := by
  obtain ⟨lead, trail, hlead, htrail, rfl⟩ := h
  cases hempty : value with
  | nil =>
    have hblanks : ∀ c ∈ lead ++ [] ++ trail, isBlank c = true := by
      intro c hc
      rw [List.append_nil] at hc
      exact (List.mem_append.mp hc).elim (hlead c) (htrail c)
    have hdrop : (lead ++ [] ++ trail).dropWhile isBlank = [] := by
      simpa [List.dropWhile_eq_nil_iff] using hblanks
    rw [trim, hdrop]
    rfl
  | cons c rest =>
    rw [← hempty]
    exact (trim_append hlead htrail hvalue.head hvalue.last (by simp [hempty])).1

theorem foldr_glue (text first : Text) (rest : List Text) :
    text.foldr glue (first :: rest) = (text ++ first) :: rest := by
  induction text with
  | nil => rfl
  | cons c text ih => rw [List.foldr_cons, ih, glue, List.cons_append]

end Text

namespace Table

open Text

/-- How many quotation marks of a text have no backslash directly in front of them. -/
def marksIn (text : Text) : Nat :=
  ((none :: text.map some).zip text).countP fun pair => pair.2 == '"' && pair.1 != some '\\'

/-- The characters of a text, each with whether it is a quotation mark that counts. -/
def marked (previous : Option Char) : Text → List (Char × Bool)
  | [] => []
  | c :: rest => (c, c == '"' && previous != some '\\') :: marked (some c) rest

/-- The pieces of a text: cut at the semicolons that an even number of marks precedes. -/
def cutFields (quoted : Bool) : List (Char × Bool) → List Text
  | [] => [[]]
  | (c, isMark) :: rest =>
    if isMark then glue c (cutFields (!quoted) rest)
    else if c == ';' && !quoted then [] :: cutFields quoted rest
    else glue c (cutFields quoted rest)

/-- Whether a text behind some characters of a row is quoted. -/
def quotedAfter (quoted : Bool) (items : List (Char × Bool)) : Bool :=
  items.foldl (fun quoted item => quoted ^^ item.2) quoted

/-- The quotation marks come in pairs, and the semicolons stand behind the first one of a pair. -/
structure IsClosed (piece : Text) : Prop where
  even : marksIn piece % 2 = 0
  quoted : ∀ before after, piece = before ++ ';' :: after → marksIn before % 2 = 1

theorem isClosed_iff_inits {piece : Text} : IsClosed piece ↔ marksIn piece % 2 = 0 ∧
    ∀ before ∈ piece.inits, before ++ [';'] <+: piece → marksIn before % 2 = 1 := by
  constructor
  · rintro ⟨heven, hquoted⟩
    refine ⟨heven, ?_⟩
    rintro before - ⟨after, hsplit⟩
    exact hquoted before after (by rw [← hsplit, List.append_assoc, List.singleton_append])
  · rintro ⟨heven, hquoted⟩
    refine ⟨heven, ?_⟩
    rintro before after rfl
    refine hquoted before (List.mem_inits _ _ |>.mpr (List.prefix_append _ _)) ⟨after, ?_⟩
    rw [List.append_assoc, List.singleton_append]

instance (piece : Text) : Decidable (IsClosed piece) := decidable_of_iff' _ isClosed_iff_inits

/-! ## Quotation marks -/

theorem marked_eq_map_zip (previous : Option Char) (text : Text) :
    marked previous text = ((previous :: text.map some).zip text).map fun pair =>
      (pair.2, pair.2 == '"' && pair.1 != some '\\') := by
  induction text generalizing previous with
  | nil => rfl
  | cons c rest ih => rw [marked, ih, List.map_cons, List.zip_cons_cons, List.map_cons]

theorem countP_marked_none (text : Text) : (marked none text).countP (·.2) = marksIn text := by
  rw [marked_eq_map_zip, List.countP_map]
  rfl

theorem map_fst_marked (previous : Option Char) (text : Text) :
    (marked previous text).map (·.1) = text := by
  induction text generalizing previous with
  | nil => rfl
  | cons c rest ih => rw [marked, List.map_cons, ih]

theorem marked_append (previous : Option Char) (left right : Text) :
    marked previous (left ++ right) =
      marked previous left ++ marked (left.getLast?.or previous) right := by
  induction left generalizing previous with
  | nil => rfl
  | cons c left ih =>
    have hlast : (c :: left).getLast?.or previous = left.getLast?.or (some c) := by
      rw [List.getLast?_cons]
      cases left.getLast? <;> rfl
    rw [List.cons_append, marked, marked, ih, hlast, List.cons_append]

/-- Unless it is a backslash, the character in front of a text does not change its marks. -/
theorem countP_marked {previous : Option Char} (text : Text) (h : previous ≠ some '\\') :
    (marked previous text).countP (·.2) = marksIn text := by
  rw [← countP_marked_none]
  cases text with
  | nil => rfl
  | cons c rest =>
    have hother : (previous != some '\\') = true := bne_iff_ne.mpr h
    rw [marked, marked, hother]
    rfl

theorem countP_marked_of_not_mem (previous : Option Char) {text : Text} (h : '"' ∉ text) :
    (marked previous text).countP (·.2) = 0 := by
  induction text generalizing previous with
  | nil => rfl
  | cons c rest ih =>
    simp only [List.mem_cons, not_or] at h
    rw [marked, List.countP_cons, ih (some c) h.2]
    simp [Ne.symm h.1]

/-- Blanks around a text do not change its marks. -/
theorem marksIn_pad {lead trail : Text} (text : Text) (hlead : ∀ c ∈ lead, isBlank c = true)
    (htrail : ∀ c ∈ trail, isBlank c = true) : marksIn (lead ++ text ++ trail) = marksIn text := by
  have hlast : lead.getLast?.or none ≠ some '\\' := by
    intro h
    rw [Option.or_none] at h
    exact absurd (hlead _ (List.mem_of_getLast? h)) (by decide)
  rw [← countP_marked (lead ++ text ++ trail) (Option.some_ne_none '\\').symm, marked_append,
    marked_append, List.countP_append, List.countP_append, countP_marked text hlast,
    countP_marked_of_not_mem _ (not_mem_of_forall '"' hlead (by decide)),
    countP_marked_of_not_mem _ (not_mem_of_forall '"' htrail (by decide))]
  omega

/-- A closed value stays closed with blanks around it. -/
theorem IsClosed.pad {value text : Text} (h : IsClosed value) (hpads : Pads value text) :
    IsClosed text := by
  obtain ⟨lead, trail, hlead, htrail, rfl⟩ := hpads
  refine ⟨by rw [marksIn_pad value hlead htrail, h.even], ?_⟩
  intro before after hsplit
  rw [List.append_assoc] at hsplit
  have hle := length_le_of_not_mem hsplit (not_mem_of_forall ';' hlead (by decide))
  obtain ⟨inner, rfl, hinner⟩ := exists_between hsplit hle
  have hmarks : marksIn (lead ++ inner) = marksIn inner := by
    have hpad := marksIn_pad inner hlead (List.forall_mem_nil _)
    rwa [List.append_nil] at hpad
  rw [hmarks]
  rcases List.append_eq_append_iff.mp hinner with ⟨more, -, htail⟩ | ⟨more, hvalue, htail⟩
  · have hmem : ';' ∈ trail := htail ▸ List.mem_append_right more List.mem_cons_self
    exact absurd hmem (not_mem_of_forall ';' htrail (by decide))
  · cases more with
    | nil =>
      have hmem : ';' ∈ trail := (List.nil_append trail).symm.trans htail.symm ▸ List.mem_cons_self
      exact absurd hmem (not_mem_of_forall ';' htrail (by decide))
    | cons c more =>
      obtain ⟨rfl, -⟩ := List.cons.inj htail
      exact h.quoted inner more hvalue

/-! ## Cutting -/

theorem quotedAfter_eq (quoted : Bool) (items : List (Char × Bool)) :
    quotedAfter quoted items = (quoted ^^ (items.countP (·.2) % 2 == 1)) := by
  induction items generalizing quoted with
  | nil => simp [quotedAfter]
  | cons item rest ih =>
    obtain ⟨c, isMark⟩ := item
    have hstep : quotedAfter quoted ((c, isMark) :: rest) =
        quotedAfter (quoted ^^ isMark) rest := rfl
    rw [hstep, ih, List.countP_cons]
    have hparity := Nat.mod_two_eq_zero_or_one (rest.countP (·.2))
    cases isMark with
    | false => simp
    | true =>
      rcases hparity with h | h <;> cases quoted <;> simp [Nat.add_mod, h]

/-- Characters whose semicolons are all quoted belong to the field that they begin. -/
theorem cutFields_append {quoted : Bool} {items : List (Char × Bool)} (rest : List (Char × Bool))
    (h : ∀ before after, items = before ++ (';', false) :: after →
      quotedAfter quoted before = true) :
    cutFields quoted (items ++ rest) =
      (items.map (·.1)).foldr glue (cutFields (quotedAfter quoted items) rest) := by
  induction items generalizing quoted with
  | nil => rfl
  | cons item items ih =>
    obtain ⟨c, isMark⟩ := item
    have htail := @ih (quoted ^^ isMark) fun before after hitems =>
      h ((c, isMark) :: before) after (by rw [hitems, List.cons_append])
    have hafter : quotedAfter quoted ((c, isMark) :: items) =
        quotedAfter (quoted ^^ isMark) items := rfl
    rw [List.cons_append, cutFields, List.map_cons, List.foldr_cons, hafter, ← htail]
    cases isMark with
    | true => simp
    | false =>
      rw [Bool.xor_false]
      by_cases hc : c = ';'
      · subst hc
        have hquoted : quoted = true := h [] items rfl
        simp [hquoted]
      · simp [hc]

/-- A closed piece belongs to one field. -/
theorem cutFields_marked_append {previous : Option Char} {piece : Text}
    (rest : List (Char × Bool)) (hprevious : previous ≠ some '\\') (hpiece : IsClosed piece) :
    cutFields false (marked previous piece ++ rest) =
      piece.foldr glue (cutFields false rest) := by
  have hquoted : ∀ before after, marked previous piece = before ++ (';', false) :: after →
      quotedAfter false before = true := by
    intro before after hitems
    have hsplit := congrArg (List.map (·.1)) hitems
    rw [map_fst_marked, List.map_append, List.map_cons] at hsplit
    have hbefore : before = marked previous (before.map (·.1)) := by
      have hmarked := hitems
      rw [hsplit, marked_append] at hmarked
      refine (List.append_inj_left hmarked ?_).symm
      have hlength := congrArg List.length (map_fst_marked previous (before.map (·.1)))
      rwa [List.length_map, List.length_map] at hlength
    have hodd := hpiece.quoted _ _ hsplit
    rw [quotedAfter_eq, hbefore, countP_marked _ hprevious, hodd]
    rfl
  rw [cutFields_append rest hquoted, map_fst_marked, quotedAfter_eq, countP_marked _ hprevious,
    hpiece.even]
  rfl

/-- Closed pieces that are joined by semicolons are cut apart again. -/
theorem cutFields_join {previous : Option Char} {pieces : List Text}
    (hprevious : previous ≠ some '\\') (hpieces : pieces ≠ [])
    (h : ∀ piece ∈ pieces, IsClosed piece) :
    cutFields false (marked previous (join ';' pieces)) = pieces := by
  induction pieces generalizing previous with
  | nil => exact absurd rfl hpieces
  | cons first rest ih =>
    have hfirst := h first List.mem_cons_self
    cases rest with
    | nil =>
      have hcut := cutFields_marked_append [] hprevious hfirst
      rw [List.append_nil] at hcut
      rw [join, hcut, cutFields, foldr_glue, List.append_nil]
    | cons second rest =>
      have hrest := @ih (some ';') (by decide) (by simp) fun piece hpiece =>
        h piece (List.mem_cons_of_mem first hpiece)
      rw [join_cons_cons, marked_append, cutFields_marked_append _ hprevious hfirst, marked,
        cutFields, hrest]
      simp [foldr_glue]

/-- The marks of closed pieces that are joined by semicolons come in pairs. -/
theorem marksIn_join {pieces : List Text} (h : ∀ piece ∈ pieces, IsClosed piece) :
    marksIn (join ';' pieces) % 2 = 0 := by
  induction pieces with
  | nil => rfl
  | cons first rest ih =>
    have hfirst := (h first List.mem_cons_self).even
    cases rest with
    | nil => exact hfirst
    | cons second rest =>
      have hrest := ih fun piece hpiece => h piece (List.mem_cons_of_mem first hpiece)
      rw [join_cons_cons, ← countP_marked _ (Option.some_ne_none '\\').symm, marked_append, marked,
        List.countP_append, List.countP_cons, countP_marked _ (Option.some_ne_none '\\').symm,
        countP_marked (join ';' (second :: rest)) (by decide)]
      simp only [Char.reduceBEq, Bool.false_and, Bool.false_eq_true, if_false]
      omega

end Table

end Stencil
