import Mathlib.Data.List.Forall2
import Stencil.Config.Basic
import Stencil.Proofs.Marker.Entity
import Stencil.Proofs.Marker.Grammar
import Stencil.Proofs.Text.Search

/-!
# Written tags

A tag that is written with its attributes is a tag of the grammar, so it is read with the same
attributes, in order, however the characters of the values are written. One way to write them is to
escape what has to be escaped and nothing else. Escaping makes no delimiter, so a tag that is written
that way fits wherever its values would.
-/

namespace Stencil

open Text

/-! ## Escaped values -/

namespace Entity

/-- The character as it is written inside a quoted value. -/
def escapeChar (c : Char) : Text :=
  if c = '&' then ['&', 'a', 'm', 'p', ';']
  else if c = '"' then ['&', 'q', 'u', 'o', 't', ';']
  else [c]

/-- The text as it is written inside a quoted value. -/
def escape (value : Text) : Text := value.flatMap escapeChar

/-- A character is written as itself or as a reference, which holds nothing that delimits. -/
theorem escapeChar_cases (c : Char) :
    (escapeChar c = [c] ∧ c ≠ '"') ∨
      ∃ more, escapeChar c = '&' :: more ∧ ∀ d ∈ more, d ≠ '"' ∧ d ≠ '*' ∧ d ≠ '\n' := by
  rw [escapeChar]
  split
  · exact Or.inr ⟨_, rfl, by simp⟩
  · split
    · exact Or.inr ⟨_, rfl, by simp⟩
    · next h => exact Or.inl ⟨rfl, h⟩

theorem escape_cons (c : Char) (rest : Text) : escape (c :: rest) = escapeChar c ++ escape rest :=
  List.flatMap_cons

/-- Escaping is a way to write a value. -/
theorem writesValue_escape (value : Text) : WritesValue '"' value (escape value) := by
  induction value with
  | nil => exact .nil
  | cons c rest ih =>
    rw [escape_cons]
    refine .cons ?_ ih
    rw [escapeChar]
    split
    · next h =>
      subst h
      exact @WritesChar.named _ _ ['a', 'm', 'p'] (by decide)
    · next hamp =>
      split
      · next h =>
        subst h
        exact @WritesChar.named _ _ ['q', 'u', 'o', 't'] (by decide)
      · next hquote => exact .literal hamp hquote

end Entity

/-- The tag of a configuration that is accepted is a tag name. -/
theorem Config.isTagName_of_validate {config : Config} (h : config.validate = .ok config) :
    isTagName config.tag = true := by
  rw [validate] at h
  split at h
  · exact absurd h (by simp)
  · next htag => simpa using htag

namespace Token

/-- The tag of a configuration that can be used is a name. -/
theorem isName_of_isTagName {tag : Text} (h : Config.isTagName tag = true) :
    isName tag = true := by
  cases tag with
  | nil => exact absurd h (by decide)
  | cons c rest =>
    simp only [Config.isTagName, Bool.and_eq_true, List.all_eq_true] at h
    simp only [isName, Bool.and_eq_true, List.all_eq_true]
    refine ⟨?_, ?_⟩
    · rw [isNameStart, h.1, Bool.true_or]
    · intro d hd
      have hrest := h.2 d hd
      simp only [Bool.or_eq_true] at hrest
      simp only [isNameRest, Bool.or_eq_true]
      rcases hrest with (((hrest | hrest) | hrest) | hrest) | hrest <;> simp [hrest]

end Token

/-! ## Written tags -/

namespace Marker

open Token

/-- An attribute as it is written in a tag. -/
def writtenAttribute (pair : Text × Text) : Text :=
  ' ' :: pair.1 ++ ['=', '"'] ++ Entity.escape pair.2 ++ ['"']

/-- An opening tag. -/
def openingTag (tag : Text) (attributes : Attributes) : Text :=
  openingStart tag ++ attributes.flatMap writtenAttribute ++ ['>']

/-- A closing tag. -/
def closingTag (tag : Text) : Text := closingStart tag ++ ['>']

/-- The text is an attribute as it may be written: with any whitespace around its parts, between
either kind of quotation marks, and with its characters written in any way. -/
inductive WritesAttribute : Text × Text → Text → Prop
  | intro {space name gap after raw value : Text} {mark : Char} (hne : space ≠ [])
      (hspace : IsGap space) (hgap : IsGap gap) (hafter : IsGap after)
      (hmark : mark = '"' ∨ mark = '\'') (hvalue : Entity.WritesValue mark value raw) :
      WritesAttribute (name, value) (space ++ name ++ gap ++ '=' :: after ++ mark :: raw ++ [mark])

/-- The content is an opening tag as it may be written. -/
def WritesTag (tag : Text) (attributes : Attributes) (content : Text) : Prop :=
  ∃ texts gap, List.Forall₂ WritesAttribute attributes texts ∧ IsGap gap ∧
    content = openingStart tag ++ (texts.flatten ++ (gap ++ ['>']))

theorem writesAttribute_written (pair : Text × Text) :
    WritesAttribute pair (writtenAttribute pair) := by
  obtain ⟨name, value⟩ := pair
  have hwrites := @WritesAttribute.intro [' '] name [] [] _ value '"' (by simp) (by decide)
    isGap_nil isGap_nil (Or.inl rfl) (Entity.writesValue_escape value)
  simpa [writtenAttribute] using hwrites

theorem writesTag_openingTag (tag : Text) (attributes : Attributes) :
    WritesTag tag attributes (openingTag tag attributes) := by
  refine ⟨attributes.map writtenAttribute, [], ?_, isGap_nil, ?_⟩
  · rw [List.forall₂_map_right_iff, List.forall₂_same]
    exact fun pair _ => writesAttribute_written pair
  · rw [openingTag, List.append_assoc, List.nil_append]
    rfl

theorem WritesAttribute.spellsAttribute {pair : Text × Text} {text : Text}
    (h : WritesAttribute pair text) (hname : isName pair.1 = true) : SpellsAttribute pair text := by
  obtain @⟨space, name, gap, after, raw, value, mark, hne, hspace, hgap, hafter, hmark, hvalue⟩ := h
  exact .intro hne hspace hname hgap hafter hmark (hvalue.mark_not_mem hmark) hvalue.decode_eq

theorem spellsRest_of_writesAttribute {attributes : Attributes} {texts : List Text} {gap : Text}
    (h : List.Forall₂ WritesAttribute attributes texts) (hgap : IsGap gap)
    (hnames : ∀ pair ∈ attributes, isName pair.1 = true) :
    SpellsRest attributes (texts.flatten ++ (gap ++ ['>'])) := by
  induction h with
  | nil => exact .close hgap
  | cons hwrites _ ih =>
    have hrest := ih fun other hother => hnames other (List.mem_cons_of_mem _ hother)
    rw [List.flatten_cons, List.append_assoc]
    exact .more (hwrites.spellsAttribute (hnames _ List.mem_cons_self)) hrest

/-- An opening tag is read with the attributes that it is written with. -/
theorem WritesTag.read_eq {tag content : Text} {attributes : Attributes}
    (h : WritesTag tag attributes content) (htag : isName tag = true)
    (hnames : ∀ pair ∈ attributes, isName pair.1 = true)
    (hnodup : (attributes.map Prod.fst).Nodup) :
    read tag content = .ok (some (.opening attributes)) := by
  obtain ⟨texts, gap, hwrites, hgap, rfl⟩ := h
  exact (Spells.opening hnodup (spellsRest_of_writesAttribute hwrites hgap hnames)).read_eq htag

theorem read_openingTag {tag : Text} {attributes : Attributes} (htag : isName tag = true)
    (hnames : ∀ pair ∈ attributes, isName pair.1 = true)
    (hnodup : (attributes.map Prod.fst).Nodup) :
    read tag (openingTag tag attributes) = .ok (some (.opening attributes)) := by
  exact (writesTag_openingTag tag attributes).read_eq htag hnames hnodup

theorem read_closingTag {tag : Text} (htag : isName tag = true) :
    read tag (closingTag tag) = .ok (some .closing) := by
  have hspells := @Spells.closing tag [] isGap_nil
  rw [List.append_nil] at hspells
  exact hspells.read_eq htag

/-! ## Where written tags fit -/

theorem feed_not_mem_escape {value : Text} (h : '\n' ∉ value) : '\n' ∉ Entity.escape value := by
  rw [Entity.escape, List.mem_flatMap]
  rintro ⟨c, hmem, hc⟩
  rcases Entity.escapeChar_cases c with ⟨heq, -⟩ | ⟨more, heq, hmore⟩
  · rw [heq, List.mem_singleton] at hc
    exact h (hc ▸ hmem)
  · rw [heq, List.mem_cons] at hc
    rcases hc with hc | hc
    · exact absurd hc (by decide)
    · exact (hmore '\n' hc).2.2 rfl

/-- Only a star is written with a star. -/
private theorem eq_of_star_mem_escapeChar {c : Char} (h : '*' ∈ Entity.escapeChar c) : c = '*' := by
  rcases Entity.escapeChar_cases c with ⟨heq, -⟩ | ⟨more, heq, hmore⟩
  · rw [heq, List.mem_singleton] at h
    exact h.symm
  · rw [heq, List.mem_cons] at h
    rcases h with h | h
    · exact absurd h (by decide)
    · exact absurd rfl (hmore '*' h).2.1

/-- Only a text that begins with a slash is written with a slash first. -/
private theorem head?_of_head?_escape {value : Text} (h : (Entity.escape value).head? = some '/') :
    value.head? = some '/' := by
  cases value with
  | nil => simp [Entity.escape] at h
  | cons c rest =>
    rcases Entity.escapeChar_cases c with ⟨heq, -⟩ | ⟨more, heq, -⟩
    · rwa [Entity.escape_cons, heq] at h
    · simp [Entity.escape_cons, heq] at h

/-- Escaping makes no star-slash. -/
theorem closer_infix_escape {value : Text} (h : ¬ ['*', '/'] <:+: value) :
    ¬ ['*', '/'] <:+: Entity.escape value := by
  induction value with
  | nil => exact h
  | cons c rest ih =>
    have hrest : ¬ ['*', '/'] <:+: rest :=
      fun hocc => h (hocc.trans (List.suffix_cons c rest).isInfix)
    rw [Entity.escape_cons, pair_infix_append]
    rintro (hocc | hocc | ⟨hlast, hhead⟩)
    · obtain rfl := eq_of_star_mem_escapeChar (hocc.subset List.mem_cons_self)
      exact absurd hocc (by decide)
    · exact ih hrest hocc
    · -- A slash behind a written star would be one behind the star itself.
      obtain rfl := eq_of_star_mem_escapeChar (List.mem_of_getLast? hlast)
      have hslash := head?_of_head?_escape hhead
      cases rest with
      | nil => simp at hslash
      | cons d rest =>
        obtain rfl := Option.some.inj hslash
        exact h ⟨[], rest, rfl⟩

/-- No line feed and no star is in a name. -/
theorem not_mem_of_isName {text : Text} (h : isName text = true) : '\n' ∉ text ∧ '*' ∉ text := by
  have hrest := isNameRest_of_isName h
  constructor
  · intro hmem
    exact absurd (hrest '\n' hmem) (by decide)
  · intro hmem
    exact absurd (hrest '*' hmem) (by decide)

variable {tag : Text} {attributes : Attributes}

theorem feed_not_mem_openingTag (htag : isName tag = true)
    (hnames : ∀ pair ∈ attributes, isName pair.1 = true)
    (hvalues : ∀ pair ∈ attributes, '\n' ∉ pair.2) : '\n' ∉ openingTag tag attributes := by
  rw [openingTag, openingStart, List.mem_append, List.mem_append, List.mem_flatMap]
  rintro ((hmem | ⟨pair, hpair, hmem⟩) | hmem)
  · rcases List.mem_cons.mp hmem with hmem | hmem
    · exact absurd hmem (by decide)
    · exact (not_mem_of_isName htag).1 hmem
  · have hname := (not_mem_of_isName (hnames pair hpair)).1
    have hvalue := feed_not_mem_escape (hvalues pair hpair)
    simp [writtenAttribute, hname, hvalue] at hmem
  · simp at hmem

private theorem closer_infix_of_not_mem {text : Text} (h : '*' ∉ text) : ¬ ['*', '/'] <:+: text :=
  fun hocc => h (hocc.subset List.mem_cons_self)

/-- A star-slash in an attribute would be one in its value. -/
private theorem closer_infix_writtenAttribute {pair : Text × Text} (hname : isName pair.1 = true)
    (hvalue : ¬ ['*', '/'] <:+: pair.2) : ¬ ['*', '/'] <:+: writtenAttribute pair := by
  have hstar : '*' ∉ ' ' :: pair.1 ++ ['=', '"'] := by
    simp [(not_mem_of_isName hname).2]
  rw [writtenAttribute, pair_infix_append, pair_infix_append]
  rintro ((hocc | hocc | ⟨hlast, -⟩) | hocc | ⟨-, hhead⟩)
  · exact closer_infix_of_not_mem hstar hocc
  · exact closer_infix_escape hvalue hocc
  · exact hstar (List.mem_of_getLast? hlast)
  · simpa using hocc.length_le
  · simp at hhead

private theorem closer_infix_writtenAttributes (hnames : ∀ pair ∈ attributes, isName pair.1 = true)
    (hvalues : ∀ pair ∈ attributes, ¬ ['*', '/'] <:+: pair.2) :
    ¬ ['*', '/'] <:+: attributes.flatMap writtenAttribute := by
  induction attributes with
  | nil => simp
  | cons pair others ih =>
    rw [List.flatMap_cons, pair_infix_append]
    rintro (hocc | hocc | ⟨hlast, -⟩)
    · exact closer_infix_writtenAttribute (hnames pair List.mem_cons_self)
        (hvalues pair List.mem_cons_self) hocc
    · exact ih (fun other hother => hnames other (List.mem_cons_of_mem _ hother))
        (fun other hother => hvalues other (List.mem_cons_of_mem _ hother)) hocc
    · rw [writtenAttribute, List.getLast?_concat] at hlast
      simp at hlast

theorem closer_infix_openingTag (htag : isName tag = true)
    (hnames : ∀ pair ∈ attributes, isName pair.1 = true)
    (hvalues : ∀ pair ∈ attributes, ¬ ['*', '/'] <:+: pair.2) :
    ¬ ['*', '/'] <:+: openingTag tag attributes := by
  have hstar : '*' ∉ openingStart tag := by
    simp [openingStart, (not_mem_of_isName htag).2]
  rw [openingTag, pair_infix_append, pair_infix_append]
  rintro ((hocc | hocc | ⟨hlast, -⟩) | hocc | ⟨-, hhead⟩)
  · exact closer_infix_of_not_mem hstar hocc
  · exact closer_infix_writtenAttributes hnames hvalues hocc
  · exact hstar (List.mem_of_getLast? hlast)
  · simpa using hocc.length_le
  · simp at hhead

theorem not_mem_closingTag (htag : isName tag = true) :
    '\n' ∉ closingTag tag ∧ ¬ ['*', '/'] <:+: closingTag tag := by
  obtain ⟨hfeed, hstar⟩ := not_mem_of_isName htag
  constructor
  · simp [closingTag, closingStart, hfeed]
  · apply closer_infix_of_not_mem
    simp [closingTag, closingStart, hstar]

end Marker

end Stencil
