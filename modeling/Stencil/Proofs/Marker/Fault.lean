import Stencil.Proofs.Marker.Grammar

/-!
# Faulty tags

A content is shaped like an opening tag if it begins and ends as one does: behind the name comes
whitespace or the end of the tag, and the last character could end a tag. Nothing else is a fault.
Of the contents that are so shaped, those in front of which a whole opening tag stands are that tag,
or prose that goes on behind it; all others are faults.
-/

namespace Stencil.Marker

open Token

/-- The content begins and ends as an opening tag does. -/
def IsShaped (tag content : Text) : Prop :=
  ∃ c rest, content = openingStart tag ++ c :: rest ∧ (isSpace c = true ∨ c = '>') ∧
    content.getLast? = some '>'

/-- An opening tag is the whole content or stands at its beginning. -/
def BeginsWithTag (tag content : Text) : Prop :=
  ∃ attributes front rest, content = front ++ rest ∧ Spells tag (.opening attributes) front

/-- Only a content that is shaped like an opening tag is a fault. -/
theorem isShaped_of_read {tag content : Text} {fault : MarkerError}
    (h : read tag content = .error fault) : IsShaped tag content := by
  have htext := Token.flatMap_text_lex content
  have hspelled := isSpelled_lex content
  rw [read] at h
  split at h
  · split at h <;> exact absurd h (by simp)
  · next name rest hlex =>
    rw [hlex] at htext hspelled
    split at h
    · next hopening =>
      simp only [Bool.and_eq_true, beq_iff_eq] at hopening
      obtain ⟨⟨rfl, hlast⟩, hends⟩ := hopening
      have hcontent : content = openingStart name ++ rest.flatMap Token.text := by
        rw [← htext, List.flatMap_cons, List.flatMap_cons]
        rfl
      -- Only a run of whitespace and the end of the tag may follow its name.
      cases rest with
      | nil => exact absurd hends (by decide)
      | cons token rest =>
        cases token with
        | space run =>
          obtain ⟨hne, hrun⟩ : (Token.space run).IsSpelled := hspelled _ (by simp)
          cases run with
          | nil => exact absurd rfl hne
          | cons c run =>
            exact ⟨c, _, hcontent, Or.inl (hrun c List.mem_cons_self), hlast⟩
        | closeAngle => exact ⟨'>', _, hcontent, Or.inr rfl, hlast⟩
        | _ => exact absurd hends (by simp [endsTagName])
    · exact absurd h (by simp)
  · exact absurd h (by simp)

/-- In a content that is shaped like an opening tag, attributes are read behind the name. -/
theorem read_openingStart_append {tag rest : Text} {c : Char} (htag : isName tag = true)
    (hc : isSpace c = true ∨ c = '>')
    (hlast : (openingStart tag ++ c :: rest).getLast? = some '>') :
    read tag (openingStart tag ++ c :: rest) =
      (readAttributes [] (lex (c :: rest))).map (·.map opening) := by
  have hname : ∀ d ∈ (c :: rest).head?, isNameRest d = false := by
    rintro d hd
    obtain rfl := Option.some.inj hd
    rcases hc with hc | rfl
    · exact isNameRest_of_isSpace hc
    · rfl
  rw [read, lex_openingStart htag hname]
  simp only [hlast, endsTagName_lex rest hc, beq_self_eq_true, Bool.and_self, if_true]

/-- A content that begins with an opening tag is no fault. -/
theorem read_ne_error_of_beginsWithTag {tag content : Text} (htag : isName tag = true)
    (h : BeginsWithTag tag content) (fault : MarkerError) : read tag content ≠ .error fault := by
  intro hfault
  obtain ⟨c, rest, rfl, hc, hlast⟩ := isShaped_of_read hfault
  obtain ⟨attributes, front, after, hcontent, hspells⟩ := h
  cases hspells with
  | @opening _ text hnames hrest =>
    rw [List.append_assoc] at hcontent
    have happend := @SpellsRest.readAttributes_append _ _ hrest [] after hnames
    rw [read_openingStart_append htag hc hlast, List.append_cancel_left hcontent, happend]
      at hfault
    exact absurd hfault (by simp [Except.map])

/-- A content that is shaped like an opening tag but begins with none is a fault. -/
theorem exists_read_eq_error {tag content : Text} (htag : isName tag = true)
    (hshaped : IsShaped tag content) (h : ¬ BeginsWithTag tag content) :
    ∃ fault, read tag content = .error fault := by
  obtain ⟨c, rest, rfl, hc, hlast⟩ := hshaped
  rw [read_openingStart_append htag hc hlast]
  cases hread : readAttributes [] (lex (c :: rest)) with
  | error fault => exact ⟨fault, rfl⟩
  | ok result =>
    exfalso
    have hends : (c :: rest).getLast? = some '>' := by
      rwa [List.getLast?_append_of_ne_nil _ (List.cons_ne_nil c rest)] at hlast
    obtain ⟨-, hother⟩ | ⟨attributes, front, after, htext, hspells, hnodup, -⟩ :=
      @exists_spellsRest_of_readAttributes [] _ _ (isSpelled_lex _) List.nodup_nil hread
    · exact hother (by rwa [Token.flatMap_text_lex])
    · rw [Token.flatMap_text_lex] at htext
      refine h ⟨attributes, openingStart tag ++ front, after, ?_, .opening hnodup hspells⟩
      rw [htext, List.append_assoc]

/-- A content is a fault exactly if it begins and ends as an opening tag does and no opening tag
stands at its beginning. Every other content that is no tag is prose. -/
theorem read_eq_error_iff_isShaped {tag : Text} (htag : isName tag = true) (content : Text) :
    ((∃ fault, read tag content = .error fault) ↔
        IsShaped tag content ∧ ¬ BeginsWithTag tag content) ∧
      (read tag content = .ok none ↔ (∀ marker, ¬ Spells tag marker content) ∧
        ¬ (IsShaped tag content ∧ ¬ BeginsWithTag tag content)) := by
  have hfault : (∃ fault, read tag content = .error fault) ↔
      IsShaped tag content ∧ ¬ BeginsWithTag tag content := by
    constructor
    · rintro ⟨fault, h⟩
      exact ⟨isShaped_of_read h, fun hstands => read_ne_error_of_beginsWithTag htag hstands fault h⟩
    · rintro ⟨hshaped, h⟩
      exact exists_read_eq_error htag hshaped h
  refine ⟨hfault, ?_⟩
  rw [← hfault]
  constructor
  · intro h
    refine ⟨fun marker hspells => ?_, fun ⟨fault, hother⟩ => ?_⟩
    · rw [hspells.read_eq htag] at h
      exact absurd h (by simp)
    · rw [hother] at h
      exact absurd h (by simp)
  · rintro ⟨hspells, hno⟩
    cases hread : read tag content with
    | error fault => exact absurd ⟨fault, hread⟩ hno
    | ok result =>
      cases result with
      | none => rfl
      | some marker => exact absurd (spells_of_read hread) (hspells marker)

/-- The attribute of `<tmpl K>` has no value. -/
theorem read_eq_error_iff_isShaped_valueless :
    (∃ fault, read ['t', 'm', 'p', 'l'] ['<', 't', 'm', 'p', 'l', ' ', 'K', '>'] = .error fault) ∧
      ¬ BeginsWithTag ['t', 'm', 'p', 'l'] ['<', 't', 'm', 'p', 'l', ' ', 'K', '>'] := by
  have hread : ∃ fault,
      read ['t', 'm', 'p', 'l'] ['<', 't', 'm', 'p', 'l', ' ', 'K', '>'] = .error fault :=
    ⟨.missingValue ['K'], by decide +kernel⟩
  exact ⟨hread, ((read_eq_error_iff_isShaped (by decide) _).1.mp hread).2⟩

/-- `<tmpl> <b>` is shaped like an opening tag and is none, but it is prose and no fault. -/
theorem read_tag_before_prose :
    IsShaped ['t', 'm', 'p', 'l'] ['<', 't', 'm', 'p', 'l', '>', ' ', '<', 'b', '>'] ∧
      (∀ attributes, ¬ Spells ['t', 'm', 'p', 'l'] (.opening attributes)
        ['<', 't', 'm', 'p', 'l', '>', ' ', '<', 'b', '>']) ∧
      read ['t', 'm', 'p', 'l'] ['<', 't', 'm', 'p', 'l', '>', ' ', '<', 'b', '>'] =
        .ok none := by
  have hread : read ['t', 'm', 'p', 'l'] ['<', 't', 'm', 'p', 'l', '>', ' ', '<', 'b', '>'] =
      .ok none := by decide +kernel
  refine ⟨⟨'>', [' ', '<', 'b', '>'], rfl, Or.inr rfl, rfl⟩, ?_, hread⟩
  intro attributes hspells
  rw [hspells.read_eq (by decide)] at hread
  exact absurd hread (by simp)

end Stencil.Marker
