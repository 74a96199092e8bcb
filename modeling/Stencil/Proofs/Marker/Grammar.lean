import Stencil.Proofs.Marker.Tag
import Stencil.Proofs.Marker.Token

/-!
# The grammar of markers

What tags look like, said without tokens: an opening tag is its name, attributes with whitespace in
front of each, and the end; a closing tag is its name and the end. A content is read as a marker
exactly if it is a tag of the grammar. One direction cuts a tag of the grammar into its tokens, the
other one puts the tokens of whatever was read together again.
-/

namespace Stencil.Marker

open Token

/-- Whitespace that may be left out. -/
def IsGap (gap : Text) : Prop := ∀ c ∈ gap, isSpace c = true

instance (gap : Text) : Decidable (IsGap gap) :=
  decidable_of_iff (gap.all isSpace = true) List.all_eq_true

theorem isGap_nil : IsGap [] := by simp [IsGap]

/-- An attribute with the whitespace in front of it: a name, an equals sign and a quoted text that
is decoded to the value. -/
inductive SpellsAttribute : Text × Text → Text → Prop
  | intro {space name gap after raw value : Text} {mark : Char} (hne : space ≠ [])
      (hspace : IsGap space) (hname : isName name = true) (hgap : IsGap gap) (hafter : IsGap after)
      (hmark : mark = '"' ∨ mark = '\'') (hraw : mark ∉ raw)
      (hvalue : Entity.decode raw = .ok value) :
      SpellsAttribute (name, value) (space ++ name ++ gap ++ '=' :: after ++ mark :: raw ++ [mark])

/-- What follows the name in an opening tag, by the attributes that it gives. -/
inductive SpellsRest : Attributes → Text → Prop
  | close {gap : Text} (hgap : IsGap gap) : SpellsRest [] (gap ++ ['>'])
  | more {pair : Text × Text} {attributes : Attributes} {text rest : Text}
      (hattribute : SpellsAttribute pair text) (hrest : SpellsRest attributes rest) :
      SpellsRest (pair :: attributes) (text ++ rest)

/-- A content is a tag: an opening one, whose attributes have different names, or a closing one. -/
inductive Spells (tag : Text) : Marker → Text → Prop
  | opening {attributes : Attributes} {rest : Text} (hnames : (attributes.map Prod.fst).Nodup)
      (hrest : SpellsRest attributes rest) :
      Spells tag (.opening attributes) (openingStart tag ++ rest)
  | closing {gap : Text} (hgap : IsGap gap) : Spells tag .closing (closingStart tag ++ gap ++ ['>'])

/-! ## Cutting a tag into tokens -/

/-- The tokens of whitespace that may be left out. -/
def gapTokens (gap : Text) : List Token := if gap = [] then [] else [.space gap]

theorem gapTokens_of_ne {gap : Text} (h : gap ≠ []) : gapTokens gap = [.space gap] := if_neg h

/-- A token is cut as it is spelled with whitespace in front of it. -/
theorem lex_gap_append {gap rest : Text} (token : Token) (hgap : IsGap gap)
    (htoken : ∀ c ∈ (token.text ++ rest).head?, isSpace c = false) (hends : token.Ends rest.head?) :
    lex (gap ++ (token.text ++ rest)) = gapTokens gap ++ token :: lex rest := by
  by_cases hne : gap = []
  · rw [hne, List.nil_append, lex_append hends]
    rfl
  · have hspace : (Token.space gap).Ends (token.text ++ rest).head? := ⟨hne, hgap, htoken⟩
    have hlex := lex_append hspace
    rw [Token.text] at hlex
    rw [hlex, lex_append hends, gapTokens_of_ne hne]
    rfl

theorem skipSpace_gapTokens (gap : Text) (tokens : List Token) :
    skipSpace (gapTokens gap ++ tokens) = skipSpace tokens := by
  rw [gapTokens]
  split <;> rfl

/-- A value is read with the whitespace around the equals sign. -/
theorem readValue_gaps {raw value : Text} (name gap after : Text) (mark : Char) (rest : List Token)
    (hvalue : Entity.decode raw = .ok value) :
    readValue name
        (gapTokens gap ++ .equals :: (gapTokens after ++ .quoted mark raw :: rest)) =
      .ok (value, rest) := by
  rw [readValue, skipSpace_gapTokens]
  simp only [skipSpace, skipSpace_gapTokens, hvalue]

/-- One step of reading attributes. -/
theorem readAttributes_of_readValue {found : Attributes} {name value : Text}
    {tokens rest more : List Token} (hskip : skipSpace tokens = .name name :: rest)
    (hspaced : (skipSpace tokens).length < tokens.length)
    (hvalue : readValue name rest = .ok (value, more))
    (hnew : (found.any fun pair => pair.1 == name) = false) :
    readAttributes found tokens = readAttributes (found ++ [(name, value)]) more := by
  rw [readAttributes]
  split
  · next h => simp [hskip] at h
  · next h => simp [hskip] at h
  · next other others h =>
    obtain ⟨hother, rfl⟩ := List.cons.inj (hskip.symm.trans h)
    obtain rfl := Token.name.inj hother
    rw [if_pos hspaced]
    split
    · next h => simp [hvalue] at h
    · next found' more' h =>
      obtain ⟨rfl, rfl⟩ : value = found' ∧ more = more' := by simpa [hvalue] using h
      rw [hnew]
      rfl
  · next hother h => exact absurd (List.cons.inj (hskip.symm.trans h)).1.symm (hother name)

/-- The tokens of an attribute are cut as they are spelled, whatever follows it. -/
private theorem lex_attribute {space name gap after raw : Text} {mark : Char} (rest : Text)
    (hspace : IsGap space) (hname : isName name = true) (hgap : IsGap gap) (hafter : IsGap after)
    (hmark : mark = '"' ∨ mark = '\'') (hraw : mark ∉ raw) :
    lex (space ++ name ++ gap ++ '=' :: after ++ mark :: raw ++ [mark] ++ rest) =
      gapTokens space ++ .name name ::
        (gapTokens gap ++ .equals :: (gapTokens after ++ .quoted mark raw :: lex rest)) := by
  have hquoted : lex (after ++ ((Token.quoted mark raw).text ++ rest)) =
      gapTokens after ++ .quoted mark raw :: lex rest := by
    refine lex_gap_append (.quoted mark raw) hafter ?_ ⟨hmark, hraw⟩
    rcases hmark with rfl | rfl <;> simp [Token.text, isSpace]
  have hequals :
      lex (gap ++ (Token.equals.text ++ (after ++ ((Token.quoted mark raw).text ++ rest)))) =
      gapTokens gap ++ .equals :: (gapTokens after ++ .quoted mark raw :: lex rest) := by
    rw [lex_gap_append .equals hgap (by simp [Token.text, isSpace]) trivial, hquoted]
  have hends : ∀ c ∈ (gap ++ (Token.equals.text ++
      (after ++ ((Token.quoted mark raw).text ++ rest)))).head?, isNameRest c = false := by
    cases gap with
    | nil => simp [Token.text, isNameRest]
    | cons c gap =>
      rintro d hd
      obtain rfl := Option.some.inj hd
      exact isNameRest_of_isSpace (hgap c List.mem_cons_self)
  have htext : space ++ name ++ gap ++ '=' :: after ++ mark :: raw ++ [mark] ++ rest =
      space ++ ((Token.name name).text ++
        (gap ++ (Token.equals.text ++ (after ++ ((Token.quoted mark raw).text ++ rest))))) := by
    simp [Token.text]
  rw [htext, lex_gap_append (.name name) hspace (isSpace_of_isName hname) ⟨hname, hends⟩, hequals]

/-- An attribute is read, whatever follows it. -/
theorem SpellsAttribute.readAttributes_eq {pair : Text × Text} {text : Text}
    (h : SpellsAttribute pair text) {found : Attributes} (rest : Text)
    (hnew : (found.any fun other => other.1 == pair.1) = false) :
    readAttributes found (lex (text ++ rest)) = readAttributes (found ++ [pair]) (lex rest) := by
  obtain @⟨space, name, gap, after, raw, value, mark, hne, hspace, hname, hgap, hafter, hmark, hraw,
    hvalue⟩ := h
  have hskip := skipSpace_gapTokens space (.name name ::
    (gapTokens gap ++ .equals :: (gapTokens after ++ .quoted mark raw :: lex rest)))
  rw [lex_attribute rest hspace hname hgap hafter hmark hraw]
  refine readAttributes_of_readValue hskip ?_ (readValue_gaps name gap after mark _ hvalue) hnew
  rw [hskip, gapTokens_of_ne hne]
  exact Nat.lt_succ_self _

/-- The end of a tag is cut off from whatever follows it. -/
theorem lex_close {gap : Text} (rest : Text) (hgap : IsGap gap) :
    lex (gap ++ '>' :: rest) = gapTokens gap ++ .closeAngle :: lex rest :=
  lex_gap_append .closeAngle hgap (by simp [Token.text, isSpace]) trivial

/-- What follows the name in an opening tag is read with its attributes, and if the content goes on
behind the tag it is prose. -/
theorem SpellsRest.readAttributes_append {attributes : Attributes} {text : Text}
    (h : SpellsRest attributes text) {found : Attributes} (rest : Text)
    (hnodup : ((found ++ attributes).map Prod.fst).Nodup) :
    readAttributes found (lex (text ++ rest)) =
      .ok (if (lex rest).isEmpty then some (found ++ attributes) else none) := by
  induction h generalizing found with
  | @close gap hgap =>
    have hskip : skipSpace (lex (gap ++ ['>'] ++ rest)) = .closeAngle :: lex rest := by
      rw [List.append_assoc, List.singleton_append, lex_close rest hgap, skipSpace_gapTokens]
      rfl
    rw [readAttributes]
    split <;> simp_all
  | @more pair attributes text others hattribute _ ih =>
    have hnew : (found.any fun other => other.1 == pair.1) = false := by
      rw [List.map_append, List.nodup_append] at hnodup
      rw [List.any_eq_false]
      rintro other hother heq
      exact hnodup.2.2 other.1 (List.mem_map_of_mem hother) pair.1 (by simp) (eq_of_beq heq)
    have hrest := @ih (found ++ [pair]) (by simpa using hnodup)
    rw [List.append_assoc, hattribute.readAttributes_eq (others ++ rest) hnew, hrest,
      List.append_assoc, List.singleton_append]

/-! ## Putting tokens together -/

/-- The whitespace that is skipped, and what is left. -/
theorem exists_gap (tokens : List Token) (hspelled : ∀ token ∈ tokens, token.IsSpelled) :
    ∃ gap, IsGap gap ∧ tokens.flatMap Token.text = gap ++ (skipSpace tokens).flatMap Token.text ∧
      ((skipSpace tokens).length < tokens.length → gap ≠ []) ∧
      ∀ token ∈ skipSpace tokens, token.IsSpelled := by
  fun_induction skipSpace tokens with
  | case1 run rest ih =>
    obtain ⟨hne, hrun⟩ : (Token.space run).IsSpelled := hspelled _ List.mem_cons_self
    obtain ⟨gap, hgap, htext, -, hrest⟩ :=
      ih fun token htoken => hspelled token (List.mem_cons_of_mem _ htoken)
    refine ⟨run ++ gap, ?_, ?_, ?_, hrest⟩
    · intro c hc
      exact (List.mem_append.mp hc).elim (hrun c) (hgap c)
    · rw [List.flatMap_cons, htext, Token.text, List.append_assoc]
    · simp [hne]
  | case2 tokens => exact ⟨[], isGap_nil, rfl, by simp, hspelled⟩

/-- A value that is read is an equals sign and a quoted text that is decoded to it. -/
theorem exists_of_readValue {name value : Text} {tokens rest : List Token}
    (hspelled : ∀ token ∈ tokens, token.IsSpelled) (h : readValue name tokens = .ok (value, rest)) :
    ∃ gap after mark raw, IsGap gap ∧ IsGap after ∧ (mark = '"' ∨ mark = '\'') ∧ mark ∉ raw ∧
      Entity.decode raw = .ok value ∧
      tokens.flatMap Token.text =
        gap ++ '=' :: after ++ mark :: raw ++ [mark] ++ rest.flatMap Token.text ∧
      ∀ token ∈ rest, token.IsSpelled := by
  obtain ⟨gap, hgap, htokens, -, hskipped⟩ := exists_gap tokens hspelled
  rw [readValue] at h
  split at h
  · next behind hequals =>
    rw [hequals] at htokens hskipped
    obtain ⟨after, hafter, hbehind, -, hquoted⟩ :=
      exists_gap behind fun token htoken => hskipped token (List.mem_cons_of_mem _ htoken)
    split at h
    · next mark raw last hlast =>
      rw [hlast] at hbehind hquoted
      obtain ⟨hmark, hraw⟩ : (Token.quoted mark raw).IsSpelled := hquoted _ List.mem_cons_self
      split at h
      · next found hdecode =>
        obtain ⟨rfl, rfl⟩ := Prod.mk.inj (Except.ok.inj h)
        refine ⟨gap, after, mark, raw, hgap, hafter, hmark, hraw, hdecode, ?_,
          fun token htoken => hquoted token (List.mem_cons_of_mem _ htoken)⟩
        rw [htokens, List.flatMap_cons, hbehind, List.flatMap_cons]
        simp [Token.text]
      · exact absurd h (by simp)
    · exact absurd h (by simp)
  · exact absurd h (by simp)

/-- If reading attributes finds no fault, the end of a tag was reached, and what stands in front of it
is spelled; or the content ends before its tag does, and not like a tag. -/
theorem exists_spellsRest_of_readAttributes {found : Attributes} {tokens : List Token}
    {result : Option Attributes} (hspelled : ∀ token ∈ tokens, token.IsSpelled)
    (hfound : (found.map Prod.fst).Nodup) (h : readAttributes found tokens = .ok result) :
    (result = none ∧ (tokens.flatMap Token.text).getLast? ≠ some '>') ∨
      ∃ attributes front after, tokens.flatMap Token.text = front ++ after ∧
        SpellsRest attributes front ∧ ((found ++ attributes).map Prod.fst).Nodup ∧
        ∀ all, result = some all → all = found ++ attributes ∧ after = [] := by
  fun_induction readAttributes found tokens with
  | case3 | case4 | case6 | case7 => exact absurd h (by simp)
  | case1 found tokens hend =>
    obtain ⟨gap, hgap, htokens, -, -⟩ := exists_gap tokens hspelled
    rw [hend, List.flatMap_nil, List.append_nil] at htokens
    refine Or.inl ⟨(Except.ok.inj h).symm, ?_⟩
    rw [htokens]
    exact fun hlast => absurd (hgap '>' (List.mem_of_getLast? hlast)) (by decide)
  | case2 found tokens rest hclose =>
    obtain ⟨gap, hgap, htokens, -, -⟩ := exists_gap tokens hspelled
    rw [hclose] at htokens
    refine Or.inr ⟨[], gap ++ ['>'], rest.flatMap Token.text, ?_, .close hgap, by simpa using hfound,
      ?_⟩
    · rw [htokens, List.flatMap_cons, List.append_assoc]
      rfl
    · rintro all rfl
      cases rest with
      | cons token rest => exact absurd h (by simp)
      | nil => exact ⟨by simpa using (Option.some.inj (Except.ok.inj h)).symm, rfl⟩
  | case5 found tokens name rest hname hspaced value more hvalue hnew ih =>
    obtain ⟨space, hspace, htokens, hne, hskipped⟩ := exists_gap tokens hspelled
    rw [hname] at htokens hskipped
    have hnamed : (Token.name name).IsSpelled := hskipped _ List.mem_cons_self
    obtain ⟨gap, after, mark, raw, hgap, hafter, hmark, hraw, hdecode, hrest, hmore⟩ :=
      exists_of_readValue (fun token htoken => hskipped token (List.mem_cons_of_mem _ htoken))
        hvalue
    have hadded : ((found ++ [(name, value)]).map Prod.fst).Nodup := by
      rw [List.map_append, List.nodup_append]
      refine ⟨hfound, by simp, ?_⟩
      rintro other hother _ hlast rfl
      obtain ⟨pair, hpair, rfl⟩ := List.mem_map.mp hother
      obtain rfl : pair.1 = name := by simpa using hlast
      exact hnew (List.any_eq_true.mpr ⟨pair, hpair, beq_self_eq_true _⟩)
    have hattribute :=
      SpellsAttribute.intro (hne hspaced) hspace hnamed hgap hafter hmark hraw hdecode
    have htext : tokens.flatMap Token.text =
        (space ++ name ++ gap ++ '=' :: after ++ mark :: raw ++ [mark]) ++
          more.flatMap Token.text := by
      rw [htokens, List.flatMap_cons, hrest]
      simp [Token.text]
    rw [htext]
    rcases ih hmore hadded h with ⟨hnone, hlast⟩ | ⟨attributes, front, behind, hbehind, hspells,
      hnodup, hall⟩
    · -- A content that ends with a value ends with its quotation mark.
      refine Or.inl ⟨hnone, ?_⟩
      rw [List.getLast?_append]
      cases hmoreLast : (more.flatMap Token.text).getLast? with
      | some c => rwa [hmoreLast] at hlast
      | none =>
        rw [Option.none_or, List.getLast?_concat]
        rcases hmark with rfl | rfl <;> decide
    · refine Or.inr ⟨(name, value) :: attributes, _, behind, ?_, .more hattribute hspells,
        by simpa using hnodup, fun all hresult => by simpa using hall all hresult⟩
      rw [hbehind, ← List.append_assoc]

/-- Attributes that are read are spelled, and a name that was found is not found again. -/
theorem spellsRest_of_readAttributes {found all : Attributes} {tokens : List Token}
    (hspelled : ∀ token ∈ tokens, token.IsSpelled) (hfound : (found.map Prod.fst).Nodup)
    (h : readAttributes found tokens = .ok (some all)) :
    (all.map Prod.fst).Nodup ∧
      ∃ attributes, all = found ++ attributes ∧
        SpellsRest attributes (tokens.flatMap Token.text) := by
  obtain ⟨hnone, -⟩ | ⟨attributes, front, after, htext, hspells, hnodup, hall⟩ :=
    exists_spellsRest_of_readAttributes hspelled hfound h
  · exact absurd hnone (by simp)
  · obtain ⟨rfl, rfl⟩ := hall all rfl
    rw [List.append_nil] at htext
    exact ⟨hnodup, attributes, rfl, htext ▸ hspells⟩

/-! ## Reading markers -/

/-- What follows the name in an opening tag begins with whitespace or ends the tag. -/
theorem SpellsRest.exists_cons {attributes : Attributes} {rest : Text}
    (h : SpellsRest attributes rest) :
    ∃ c more, rest = c :: more ∧ (isSpace c = true ∨ c = '>') := by
  cases h with
  | @close gap hgap =>
    cases gap with
    | nil => exact ⟨'>', [], rfl, Or.inr rfl⟩
    | cons c gap => exact ⟨c, gap ++ ['>'], rfl, Or.inl (hgap c List.mem_cons_self)⟩
  | more hattribute _ =>
    obtain @⟨space, name, gap, after, raw, value, mark, hne, hspace, -⟩ := hattribute
    cases space with
    | nil => exact absurd rfl hne
    | cons c space =>
      exact ⟨c, _, rfl, Or.inl (hspace c List.mem_cons_self)⟩

theorem SpellsRest.getLast? {attributes : Attributes} {rest : Text}
    (h : SpellsRest attributes rest) : rest.getLast? = some '>' := by
  induction h with
  | close _ => exact List.getLast?_concat
  | more _ _ ih => rw [List.getLast?_append, ih, Option.some_or]

/-- What follows the name in an opening tag does not prolong the name. -/
theorem SpellsRest.ends_name {attributes : Attributes} {rest : Text}
    (h : SpellsRest attributes rest) : ∀ c ∈ rest.head?, isNameRest c = false := by
  obtain ⟨c, more, rfl, hc⟩ := h.exists_cons
  rintro d hd
  obtain rfl := Option.some.inj hd
  rcases hc with hc | rfl
  · exact isNameRest_of_isSpace hc
  · rfl

/-- Whitespace and the end of the tag may follow its name. -/
theorem endsTagName_lex {c : Char} (more : Text) (hc : isSpace c = true ∨ c = '>') :
    endsTagName (lex (c :: more)).head? = true := by
  rw [lex]
  rcases hc with hc | rfl
  · simp only [isSpace, Bool.or_eq_true, beq_iff_eq] at hc
    rcases hc with ((rfl | rfl) | rfl) | rfl <;> rfl
  · rfl

theorem SpellsRest.endsTagName_lex {attributes : Attributes} {rest : Text}
    (h : SpellsRest attributes rest) : endsTagName (lex rest).head? = true := by
  obtain ⟨c, more, rfl, hc⟩ := h.exists_cons
  exact Marker.endsTagName_lex more hc

/-- The beginning of a tag is cut off where its name ends. -/
theorem lex_openingStart {tag rest : Text} (htag : isName tag = true)
    (hrest : ∀ c ∈ rest.head?, isNameRest c = false) :
    lex (openingStart tag ++ rest) = .openAngle :: .name tag :: lex rest := by
  have hname : (Token.name tag).Ends rest.head? := ⟨htag, hrest⟩
  have hangle : Token.openAngle.Ends ((Token.name tag).text ++ rest).head? := by
    cases tag with
    | nil => exact absurd htag (by decide)
    | cons c more =>
      rw [isName, Bool.and_eq_true] at htag
      rintro hslash
      obtain rfl := Option.some.inj hslash
      exact absurd htag.1 (by decide)
  have htext : openingStart tag ++ rest =
      Token.openAngle.text ++ ((Token.name tag).text ++ rest) := rfl
  rw [htext, lex_append hangle, lex_append hname]

theorem lex_closingStart {tag rest : Text} (htag : isName tag = true)
    (hrest : ∀ c ∈ rest.head?, isNameRest c = false) :
    lex (closingStart tag ++ rest) = .closingAngle :: .name tag :: lex rest := by
  have hname : (Token.name tag).Ends rest.head? := ⟨htag, hrest⟩
  have hangle : Token.closingAngle.Ends ((Token.name tag).text ++ rest).head? := trivial
  have htext : closingStart tag ++ rest =
      Token.closingAngle.text ++ ((Token.name tag).text ++ rest) := rfl
  rw [htext, lex_append hangle, lex_append hname]

/-- A tag of the grammar is read as the marker that it is. -/
theorem Spells.read_eq {tag content : Text} {marker : Marker} (h : Spells tag marker content)
    (htag : isName tag = true) : read tag content = .ok (some marker) := by
  cases h with
  | @opening attributes rest hnames hrest =>
    have hattributes : readAttributes [] (lex rest) = .ok (some attributes) := by
      have happend := @SpellsRest.readAttributes_append _ _ hrest [] [] hnames
      rwa [List.append_nil, lex] at happend
    have hlast : (openingStart tag ++ rest).getLast? = some '>' := by
      rw [List.getLast?_append, hrest.getLast?, Option.some_or]
    rw [read, lex_openingStart htag hrest.ends_name]
    simp only [hlast, hrest.endsTagName_lex, beq_self_eq_true, Bool.and_self, if_true, hattributes]
    rfl
  | @closing gap hgap =>
    have hends := (SpellsRest.close hgap).ends_name
    rw [List.append_assoc, read, lex_closingStart htag hends, lex_close [] hgap, lex]
    simp [skipSpace_gapTokens, skipSpace]

/-- Whatever is read as a marker is a tag of the grammar. -/
theorem spells_of_read {tag content : Text} {marker : Marker}
    (h : read tag content = .ok (some marker)) : Spells tag marker content := by
  have htext := Token.flatMap_text_lex content
  have hspelled := isSpelled_lex content
  rw [read] at h
  split at h
  · next name rest hlex =>
    rw [hlex] at htext hspelled
    split at h
    · next hclosing =>
      obtain rfl := Option.some.inj (Except.ok.inj h)
      simp only [Bool.and_eq_true, beq_iff_eq] at hclosing
      obtain ⟨rfl, hskip⟩ := hclosing
      obtain ⟨gap, hgap, hrest, -, -⟩ := exists_gap rest fun token htoken =>
        hspelled token (List.mem_cons_of_mem _ (List.mem_cons_of_mem _ htoken))
      have hcontent : content = closingStart name ++ gap ++ ['>'] := by
        rw [← htext, List.flatMap_cons, List.flatMap_cons, hrest, hskip]
        simp [Token.text, closingStart]
      rw [hcontent]
      exact .closing hgap
    · exact absurd h (by simp)
  · next name rest hlex =>
    rw [hlex] at htext hspelled
    split at h
    · next hopening =>
      simp only [Bool.and_eq_true, beq_iff_eq] at hopening
      obtain ⟨⟨rfl, -⟩, -⟩ := hopening
      obtain ⟨attributes, hread, rfl⟩ : ∃ attributes,
          readAttributes [] rest = .ok (some attributes) ∧ .opening attributes = marker := by
        cases hread : readAttributes [] rest with
        | error fault => simp [hread, Except.map] at h
        | ok found =>
          rw [hread] at h
          obtain ⟨attributes, rfl, hmarker⟩ := Option.map_eq_some_iff.mp (Except.ok.inj h)
          exact ⟨attributes, rfl, hmarker⟩
      have hbehind : ∀ token ∈ rest, token.IsSpelled := fun token htoken =>
        hspelled token (List.mem_cons_of_mem _ (List.mem_cons_of_mem _ htoken))
      obtain ⟨hnames, _, rfl, hrest⟩ :=
        @spellsRest_of_readAttributes [] attributes rest hbehind List.nodup_nil hread
      rw [← htext]
      exact .opening hnames hrest
    · exact absurd h (by simp)
  · exact absurd h (by simp)

/-- A content is read as a marker exactly if it is spelled as the tag that the marker is. -/
theorem read_eq_some_iff_spells {tag : Text} (htag : isName tag = true) (content : Text)
    (marker : Marker) : read tag content = .ok (some marker) ↔ Spells tag marker content :=
  ⟨spells_of_read, fun h => h.read_eq htag⟩

theorem read_eq_some_iff_spells_quotes :
    read ['t', 'm', 'p', 'l'] ['<', 't', 'm', 'p', 'l', '\t', 'K', ' ', '=', ' ', '\'', '"', '&',
        'l', 't', ';', '>', '\'', '\n', '>'] =
      .ok (some (.opening [(['K'], ['"', '<', '>'])])) := by
  have hdecode : Entity.decode ['"', '&', 'l', 't', ';', '>'] = .ok ['"', '<', '>'] := by cbv
  have hattribute := @SpellsAttribute.intro ['\t'] ['K'] [' '] [' '] _ _ '\'' (by decide)
    (by decide) (by decide) (by decide) (by decide) (Or.inr rfl) (by decide) hdecode
  have hspells := @Spells.opening ['t', 'm', 'p', 'l'] _ _ (by decide)
    (SpellsRest.more hattribute (@SpellsRest.close ['\n'] (by decide)))
  exact (read_eq_some_iff_spells (by decide) _ _).mpr hspells

end Stencil.Marker
