import Stencil.Marker.Token
import Stencil.Proofs.Text.Runs

/-!
# Tokens as they are spelled

A token is read as it is spelled unless what follows prolongs it. In the other direction, the
characters of each token that is read are of the kind that the token stands for.
-/

namespace Stencil

open Text

namespace Token

/-- Whether a text is a name. -/
def isName : Text → Bool
  | [] => false
  | c :: rest => isNameStart c && rest.all isNameRest

/-- The character that comes next does not prolong the token. -/
def Ends (next : Option Char) : Token → Prop
  | openAngle => next ≠ some '/'
  | space run => run ≠ [] ∧ (∀ c ∈ run, isSpace c = true) ∧ ∀ c ∈ next, isSpace c = false
  | name text => isName text = true ∧ ∀ c ∈ next, isNameRest c = false
  | quoted mark text => (mark = '"' ∨ mark = '\'') ∧ mark ∉ text
  | stray _ => False
  | _ => True

private theorem first_space {c : Char} {run rest : Text} (hc : isSpace c = true)
    (hrun : ∀ d ∈ run, isSpace d = true) (hrest : ∀ d ∈ rest.head?, isSpace d = false) :
    first c (run ++ rest) = (space (c :: run), rest) := by
  have hne : ∀ d : Char, isSpace d = false → (c == d) = false := by
    rintro d hd
    rw [beq_eq_false_iff_ne]
    rintro rfl
    simp [hc] at hd
  unfold first
  rw [hne '<' (by decide), hne '/' (by decide), hne '>' (by decide), hne '=' (by decide), hc]
  simp only [Bool.false_eq_true, if_false, if_true, takeWhile_run hrun hrest,
    dropWhile_run hrun hrest]

private theorem first_name {c : Char} {more rest : Text} (hc : isNameStart c = true)
    (hmore : ∀ d ∈ more, isNameRest d = true) (hrest : ∀ d ∈ rest.head?, isNameRest d = false) :
    first c (more ++ rest) = (name (c :: more), rest) := by
  have hne : ∀ d : Char, isNameStart d = false → (c == d) = false := by
    rintro d hd
    rw [beq_eq_false_iff_ne]
    rintro rfl
    simp [hc] at hd
  have hspace : isSpace c = false := by
    rw [isSpace, hne ' ' (by decide), hne '\t' (by decide), hne '\r' (by decide),
      hne '\n' (by decide)]
    rfl
  unfold first
  rw [hne '<' (by decide), hne '/' (by decide), hne '>' (by decide), hne '=' (by decide), hspace,
    hc]
  simp only [Bool.false_eq_true, if_false, if_true, takeWhile_run hmore hrest,
    dropWhile_run hmore hrest]

private theorem first_quoted {mark : Char} {text : Text} (rest : Text)
    (hmark : mark = '"' ∨ mark = '\'') (htext : mark ∉ text) :
    first mark (text ++ mark :: rest) = (quoted mark text, rest) := by
  have hrun : ∀ c ∈ text, (c != mark) = true := by
    intro c hc
    rw [bne_iff_ne]
    rintro rfl
    exact htext hc
  have hstop : ∀ c ∈ (mark :: rest).head?, (c != mark) = false := by simp
  have hdrop := dropWhile_run hrun hstop
  have htake := takeWhile_run hrun hstop
  rcases hmark with rfl | rfl <;>
    simp [first, hdrop, htake, isSpace, isNameStart]

/-- A token that what follows does not prolong is read as it is written. -/
theorem lex_append {token : Token} {rest : Text} (h : token.Ends rest.head?) :
    lex (token.text ++ rest) = token :: lex rest := by
  have hlex : ∀ (c : Char) (more : Text), token.text = c :: more →
      first c (more ++ rest) = (token, rest) → lex (token.text ++ rest) = token :: lex rest := by
    intro c more htext hfirst
    rw [htext, List.cons_append, lex, hfirst]
  cases token with
  | closingAngle => exact hlex '<' ['/'] rfl rfl
  | openAngle =>
    refine hlex '<' [] rfl ?_
    unfold first
    rw [List.nil_append, if_pos (by decide)]
    split
    · exact absurd rfl h
    · rfl
  | emptyEnd => exact hlex '/' ['>'] rfl rfl
  | closeAngle => exact hlex '>' [] rfl rfl
  | equals => exact hlex '=' [] rfl rfl
  | space run =>
    obtain ⟨hne, hrun, hnext⟩ := h
    cases run with
    | nil => exact absurd rfl hne
    | cons c run =>
      exact hlex c run rfl (first_space (hrun c List.mem_cons_self)
        (fun d hd => hrun d (List.mem_cons_of_mem c hd)) hnext)
  | name text =>
    obtain ⟨hname, hnext⟩ := h
    cases text with
    | nil => exact absurd hname (by decide)
    | cons c more =>
      rw [isName, Bool.and_eq_true, List.all_eq_true] at hname
      exact hlex c more rfl (first_name hname.1 hname.2 hnext)
  | quoted mark text =>
    obtain ⟨hmark, htext⟩ := h
    refine hlex mark (text ++ [mark]) rfl ?_
    rw [List.append_assoc, List.singleton_append]
    exact first_quoted rest hmark htext
  | stray text => exact absurd h id

/-- The first character of a name could also continue it. -/
theorem isNameRest_of_isName {text : Text} (h : isName text = true) :
    ∀ c ∈ text, isNameRest c = true := by
  cases text with
  | nil => simp
  | cons c more =>
    rw [isName, Bool.and_eq_true, List.all_eq_true] at h
    intro d hd
    rcases List.mem_cons.mp hd with rfl | hd
    · have hstart := h.1
      simp only [isNameStart, Bool.or_eq_true] at hstart
      simp only [isNameRest, Char.isAlphanum, Bool.or_eq_true]
      rcases hstart with (hstart | hstart) | hstart <;> simp [hstart]
    · exact h.2 d hd

theorem isSpace_of_isName {text rest : Text} (h : isName text = true) :
    ∀ c ∈ (text ++ rest).head?, isSpace c = false := by
  cases text with
  | nil => exact absurd h (by decide)
  | cons c more =>
    rw [isName, Bool.and_eq_true] at h
    rintro d hd
    obtain rfl := Option.some.inj hd
    by_contra hspace
    rw [Bool.not_eq_false, isSpace] at hspace
    simp only [Bool.or_eq_true, beq_iff_eq] at hspace
    rcases hspace with ((rfl | rfl) | rfl) | rfl <;> exact absurd h.1 (by decide)

/-- Whitespace ends a name. -/
theorem isNameRest_of_isSpace {c : Char} (h : isSpace c = true) : isNameRest c = false := by
  simp only [isSpace, Bool.or_eq_true, beq_iff_eq] at h
  rcases h with ((rfl | rfl) | rfl) | rfl <;> rfl

/-! ## Tokens that are read -/

/-- The characters of the token are of the kind that it stands for. -/
def IsSpelled : Token → Prop
  | space run => run ≠ [] ∧ ∀ c ∈ run, isSpace c = true
  | name text => isName text = true
  | quoted mark text => (mark = '"' ∨ mark = '\'') ∧ mark ∉ text
  | _ => True

theorem isSpelled_first (c : Char) (rest : Text) : (first c rest).1.IsSpelled := by
  unfold first
  split
  · split <;> trivial
  split
  · split <;> trivial
  split
  · trivial
  split
  · trivial
  split
  · next hspace =>
    refine ⟨List.cons_ne_nil _ _, ?_⟩
    intro d hd
    rcases List.mem_cons.mp hd with rfl | hd
    · exact hspace
    · exact List.mem_takeWhile_imp hd
  split
  · next hstart =>
    change isName (c :: rest.takeWhile isNameRest) = true
    rw [isName, hstart, Bool.true_and, List.all_eq_true]
    exact fun d hd => List.mem_takeWhile_imp hd
  split
  · next hmark =>
    split
    · trivial
    · refine ⟨by simpa using hmark, ?_⟩
      intro hmem
      simpa using List.mem_takeWhile_imp hmem
  · trivial

/-- Whatever is read as a token is spelled as one. -/
theorem isSpelled_lex (content : Text) : ∀ token ∈ lex content, token.IsSpelled := by
  fun_induction lex content with
  | case1 => simp
  | case2 c rest ih =>
    intro token htoken
    rcases List.mem_cons.mp htoken with rfl | htoken
    · exact isSpelled_first c rest
    · exact ih token htoken

end Token

end Stencil
