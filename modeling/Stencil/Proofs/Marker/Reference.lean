import Stencil.Proofs.Marker.Entity
import Stencil.Proofs.Text.Runs

/-!
# References

A text is decoded exactly if each ampersand in it begins a reference. Every reference is replaced
once by the character to which it refers, and nothing else is changed. The references are those of
XML, but for one thing: a plus sign may stand in front of the digits of a number. So it is only in
texts with such a sign that more is decoded than the references of XML.
-/

namespace Stencil.Entity

open Text

/-- What stands between the ampersand and the semicolon of a reference to a character: the name of
the character, or its number behind a sign. -/
inductive Refers (sign : Text) (c : Char) : Text → Prop
  | named {name : Text} (hname : (name, c) ∈ namedCharacters) : Refers sign c name
  | decimal {digits : Text} (hdigits : WritesNumber 10 c.toNat digits) :
      Refers sign c ('#' :: (sign ++ digits))
  | hexadecimal {digits : Text} (hdigits : WritesNumber 16 c.toNat digits) :
      Refers sign c ('#' :: 'x' :: (sign ++ digits))

/-- A reference of XML, which has no signs. -/
def IsReference (c : Char) (name : Text) : Prop := Refers [] c name

/-- A reference of XML, or one whose number has a plus sign. -/
def IsLooseReference (c : Char) (name : Text) : Prop := Refers [] c name ∨ Refers ['+'] c name

/-- The text `value` is the text `raw` with each reference replaced by its character. -/
inductive Replaces (refers : Char → Text → Prop) : Text → Text → Prop
  | nil : Replaces refers [] []
  | keep {c : Char} {raw value : Text} (hc : c ≠ '&') (hrest : Replaces refers raw value) :
      Replaces refers (c :: raw) (c :: value)
  | replace {c : Char} {name raw value : Text} (hname : refers c name)
      (hrest : Replaces refers raw value) :
      Replaces refers ('&' :: (name ++ ';' :: raw)) (c :: value)

/-- Each ampersand of the text begins a reference. -/
def EachBegins (refers : Char → Text → Prop) (raw : Text) : Prop :=
  ∀ front rest, raw = front ++ '&' :: rest →
    ∃ c name after, refers c name ∧ rest = name ++ ';' :: after

/-- A reference of the text has a plus sign, whether or not a number follows it. -/
def HoldsSign (raw : Text) : Prop := ['&', '#', '+'] <:+: raw ∨ ['&', '#', 'x', '+'] <:+: raw

/-! ## Single references -/

variable {c : Char} {name raw value : Text}

/-- No reference holds the characters that delimit references. -/
theorem IsLooseReference.not_mem (h : IsLooseReference c name) : '&' ∉ name ∧ ';' ∉ name := by
  have hrefers : ∀ {sign : Text}, '&' ∉ sign ∧ ';' ∉ sign → Refers sign c name →
      '&' ∉ name ∧ ';' ∉ name := by
    rintro sign ⟨hamp, hend⟩ (hname | hdigits | hdigits)
    · have hnames : ∀ pair ∈ namedCharacters, '&' ∉ pair.1 ∧ ';' ∉ pair.1 := by decide
      exact hnames _ hname
    · have hdigit := fun d => isDigits_decimal.not_mem hdigits (c := d)
      simp [hamp, hend, hdigit '&' (by decide), hdigit ';' (by decide)]
    · have hdigit := fun d => isDigits_hexadecimal.not_mem hdigits (c := d)
      simp [hamp, hend, hdigit '&' (by decide), hdigit ';' (by decide)]
  rcases h with h | h
  · exact hrefers (by decide) h
  · exact hrefers (by decide) h

theorem eq_of_ofCodePoint? {n : Nat} (h : ofCodePoint? n = some c) : n = c.toNat := by
  rw [ofCodePoint?] at h
  split at h
  · next hvalid =>
    have hchar : Char.ofNat n = Char.ofNatAux n hvalid := dif_pos hvalid
    rw [← Option.some.inj h, hchar]
    rfl
  · exact absurd h (by simp)

/-- A plus sign in front of a number makes no difference. -/
theorem IsDigits.readNumber_plus {base n : Nat} {digit? : Char → Option Nat} {text : Text}
    (h : IsDigits base digit?) (htext : WritesNumber base n text) (hplus : digit? '+' = none) :
    readNumber base digit? ('+' :: text) = some n := by
  rw [← h.readNumber_eq htext hplus]
  have hsign := h.not_mem htext hplus
  rw [readNumber, readNumber]
  rintro rest rfl
  exact hsign List.mem_cons_self

/-- The names of characters are the references of XML and those with a plus sign. -/
theorem char?_eq_some_iff : char? name = some c ↔ IsLooseReference c name := by
  constructor
  · intro h
    rw [char?.eq_def] at h
    split at h
    case h_6 digits =>
      obtain ⟨n, hn, hc⟩ := Option.bind_eq_some_iff.mp h
      obtain rfl := eq_of_ofCodePoint? hc
      obtain ⟨sign, digits, rfl, rfl | rfl, hdigits⟩ := exists_sign_of_hexadecimal hn
      · exact Or.inl (.hexadecimal hdigits)
      · exact Or.inr (.hexadecimal hdigits)
    case h_7 digits _ =>
      obtain ⟨n, hn, hc⟩ := Option.bind_eq_some_iff.mp h
      obtain rfl := eq_of_ofCodePoint? hc
      obtain ⟨sign, digits, rfl, rfl | rfl, hdigits⟩ := exists_sign_of_decimal hn
      · exact Or.inl (.decimal hdigits)
      · exact Or.inr (.decimal hdigits)
    case h_8 => exact absurd h (by simp)
    all_goals
      obtain rfl := Option.some.inj h
      exact Or.inl (.named (by decide))
  · rintro ((hname | hdigits | hdigits) | (hname | hdigits | hdigits))
    · exact char?_of_named hname
    · exact char?_decimal hdigits
    · exact char?_hexadecimal hdigits
    · exact char?_of_named hname
    · have hread := isDigits_decimal.readNumber_plus hdigits (by decide)
      rw [List.singleton_append, char?, hread, Option.bind_some, ofCodePoint?_toNat]
      simp
    · have hread := isDigits_hexadecimal.readNumber_plus hdigits (by decide)
      rw [List.singleton_append, char?, hread, Option.bind_some, ofCodePoint?_toNat]

/-! ## Texts -/

/-- A text with references is decoded to what it stands for. -/
theorem Replaces.decode_eq (h : Replaces IsLooseReference raw value) : decode raw = .ok value := by
  induction h with
  | nil => rw [decode]
  | keep hc _ ih =>
    rw [decode_cons _ hc, ih]
    rfl
  | replace hname _ ih =>
    rw [decode_reference hname.not_mem.2 (char?_eq_some_iff.mpr hname), ih]
    rfl

private theorem exists_of_map_cons {result : Except Text Text}
    (h : result.map (c :: ·) = .ok value) : ∃ rest, result = .ok rest ∧ c :: rest = value := by
  cases result with
  | error reason => exact absurd h (by simp [Except.map])
  | ok rest => exact ⟨rest, rfl, Except.ok.inj h⟩

/-- What is decoded is a text with references, by the recursion of decoding. -/
theorem replaces_of_decode (h : decode raw = .ok value) : Replaces IsLooseReference raw value := by
  induction raw using decode.induct generalizing value with
  | case1 =>
    rw [decode] at h
    obtain rfl := Except.ok.inj h
    exact .nil
  | case2 c rest hamp hfind =>
    rw [decode, if_pos hamp, hfind] at h
    exact Except.noConfusion rfl rfl (heq_of_eq h)
  | case3 c rest hamp length hfind hchar =>
    rw [decode, if_pos hamp, hfind] at h
    simp only [hchar, reduceCtorEq] at h
  | case4 c rest hamp length hfind decoded hchar ih =>
    rw [decode, if_pos hamp, hfind] at h
    simp only [hchar] at h
    obtain ⟨value, hrest, rfl⟩ := exists_of_map_cons h
    obtain rfl := eq_of_beq hamp
    obtain ⟨name, after, rfl, rfl, -⟩ := find?_eq_some hfind
    rw [List.append_assoc, List.take_left] at hchar
    have hdrop : (name ++ [';'] ++ after).drop (name.length + 1) = after := by
      rw [List.append_assoc, List.drop_length_add_append]
      rfl
    rw [hdrop] at ih hrest
    rw [List.append_assoc, List.singleton_append]
    exact .replace (char?_eq_some_iff.mp hchar) (ih hrest)
  | case5 c rest hamp ih =>
    rw [decode, if_neg hamp] at h
    obtain ⟨value, hrest, rfl⟩ := exists_of_map_cons h
    exact .keep (fun heq => hamp (beq_iff_eq.mpr heq)) (ih hrest)

/-- Ampersands begin references where references are replaced. No reference holds one, so an
ampersand behind a reference stands in the text that follows it. -/
theorem Replaces.eachBegins {refers : Char → Text → Prop}
    (hfree : ∀ {c name}, refers c name → '&' ∉ name) (h : Replaces refers raw value) :
    EachBegins refers raw := by
  induction h with
  | nil =>
    intro front rest hsplit
    exact absurd hsplit (by simp)
  | @keep c raw value hc _ ih =>
    intro front rest hsplit
    cases front with
    | nil => exact absurd (List.cons.inj hsplit).1 hc
    | cons d front => exact ih front rest (List.cons.inj hsplit).2
  | @replace c name raw value hname _ ih =>
    intro front rest hsplit
    cases front with
    | nil => exact ⟨c, name, raw, hname, (List.cons.inj hsplit).2.symm⟩
    | cons d front =>
      have htail := (List.cons.inj hsplit).2
      obtain ⟨between, rfl, hbetween⟩ :=
        exists_between htail (length_le_of_not_mem htail (hfree hname))
      cases between with
      | nil => exact absurd (List.cons.inj hbetween).1 (by decide)
      | cons e between => exact ih between rest (List.cons.inj hbetween).2

theorem EachBegins.of_append {refers : Char → Text → Prop} {front : Text}
    (h : EachBegins refers (front ++ raw)) : EachBegins refers raw := by
  intro between rest hsplit
  exact h (front ++ between) rest (by rw [hsplit, List.append_assoc])

/-- The references of a text can be replaced exactly if each ampersand begins one. -/
theorem exists_replaces_iff {refers : Char → Text → Prop}
    (hfree : ∀ {c name}, refers c name → '&' ∉ name) :
    (∃ value, Replaces refers raw value) ↔ EachBegins refers raw := by
  constructor
  · rintro ⟨value, h⟩
    exact h.eachBegins hfree
  · intro h
    induction hn : raw.length using Nat.strongRecOn generalizing raw with
    | _ n ih =>
      subst hn
      cases raw with
      | nil => exact ⟨[], .nil⟩
      | cons c rest =>
        by_cases hc : c = '&'
        · subst hc
          obtain ⟨c, name, after, hname, rfl⟩ := h [] rest rfl
          have hafter : EachBegins refers after := by
            apply @EachBegins.of_append _ _ ('&' :: (name ++ [';']))
            simpa using h
          obtain ⟨value, hvalue⟩ := ih after.length (by simp; omega) hafter rfl
          exact ⟨c :: value, .replace hname hvalue⟩
        · obtain ⟨value, hvalue⟩ := ih rest.length (by simp) (@EachBegins.of_append _ _ [c] h) rfl
          exact ⟨c :: value, .keep hc hvalue⟩

theorem Replaces.mono {refers refers' : Char → Text → Prop}
    (himp : ∀ {c name}, refers c name → refers' c name) (h : Replaces refers raw value) :
    Replaces refers' raw value := by
  induction h with
  | nil => exact .nil
  | keep hc _ ih => exact .keep hc ih
  | replace hname _ ih => exact .replace (himp hname) ih

/-- In a text without signs the references are those of XML. -/
theorem Replaces.isReference (h : Replaces IsLooseReference raw value) (hsign : ¬ HoldsSign raw) :
    Replaces IsReference raw value := by
  induction h with
  | nil => exact .nil
  | keep hc _ ih => exact .keep hc (ih (mt (Or.imp List.infix_cons List.infix_cons) hsign))
  | @replace c name raw value hname _ ih =>
    have hbehind : raw <:+: '&' :: (name ++ ';' :: raw) := ⟨'&' :: (name ++ [';']), [], by simp⟩
    refine .replace ?_ (ih (mt (Or.imp (·.trans hbehind) (·.trans hbehind)) hsign))
    rcases hname with hname | hname | @⟨digits, _⟩ | @⟨digits, _⟩
    · exact hname
    · exact .named hname
    · exact absurd (Or.inl ⟨[], digits ++ ';' :: raw, by simp⟩) hsign
    · exact absurd (Or.inr ⟨[], digits ++ ';' :: raw, by simp⟩) hsign

/-- A character that a text lacks is not the first one of the text with another one behind it. -/
private theorem ne_of_not_mem {front after rest : Text} {c d : Char} (hd : d ∉ front)
    (hne : c ≠ d) : front ++ c :: after ≠ d :: rest := by
  intro h
  cases front with
  | nil => exact hne (List.cons.inj h).1
  | cons e front => exact hd ((List.cons.inj h).1 ▸ List.mem_cons_self)

/-- An ampersand in front of a sign begins no reference of XML. -/
theorem not_holdsSign_of_eachBegins (h : EachBegins IsReference raw) : ¬ HoldsSign raw := by
  have hnamed : ∀ {name c after rest}, (name, c) ∈ namedCharacters →
      name ++ ';' :: after ≠ '#' :: rest := by
    intro name c after rest hname
    have hnames : ∀ pair ∈ namedCharacters, '#' ∉ pair.1 := by decide
    exact ne_of_not_mem (hnames _ hname) (by decide)
  rintro (⟨front, rest, rfl⟩ | ⟨front, rest, rfl⟩)
  · obtain ⟨c, name, after, hname, hrest⟩ := h front ('#' :: '+' :: rest) (by simp)
    rcases hname with hname | hdigits | hdigits
    · exact hnamed hname hrest.symm
    · have hplus := isDigits_decimal.not_mem hdigits (c := '+') (by decide)
      exact ne_of_not_mem hplus (by decide) (List.cons.inj hrest).2.symm
    · exact absurd (List.cons.inj (List.cons.inj hrest).2).1 (by decide)
  · obtain ⟨c, name, after, hname, hrest⟩ := h front ('#' :: 'x' :: '+' :: rest) (by simp)
    rcases hname with hname | hdigits | hdigits
    · exact hnamed hname hrest.symm
    · have hx := isDigits_decimal.not_mem hdigits (c := 'x') (by decide)
      exact ne_of_not_mem hx (by decide) (List.cons.inj hrest).2.symm
    · have hplus := isDigits_hexadecimal.not_mem hdigits (c := '+') (by decide)
      exact ne_of_not_mem hplus (by decide) (List.cons.inj (List.cons.inj hrest).2).2.symm

/-- A text is decoded exactly if each ampersand begins a reference, and then each reference is
replaced once by its character. The texts that are decoded though their references are not those of
XML are the ones in which a number begins with a plus sign. -/
theorem decode_eq_ok_iff (raw : Text) :
    (∀ value, decode raw = .ok value ↔ Replaces IsLooseReference raw value) ∧
      ((∃ value, decode raw = .ok value) ↔ EachBegins IsLooseReference raw) ∧
      (∀ value, Replaces IsReference raw value ↔ decode raw = .ok value ∧ ¬ HoldsSign raw) ∧
      (EachBegins IsReference raw ↔ (∃ value, decode raw = .ok value) ∧ ¬ HoldsSign raw) := by
  have hloose : ∀ value, decode raw = .ok value ↔ Replaces IsLooseReference raw value :=
    fun value => ⟨replaces_of_decode, Replaces.decode_eq⟩
  have hfree : ∀ {c name}, IsReference c name → '&' ∉ name :=
    fun h => (IsLooseReference.not_mem (Or.inl h)).1
  have hstrict : ∀ value, Replaces IsReference raw value ↔
      decode raw = .ok value ∧ ¬ HoldsSign raw := by
    intro value
    rw [hloose value]
    constructor
    · intro h
      exact ⟨h.mono Or.inl, not_holdsSign_of_eachBegins (h.eachBegins hfree)⟩
    · rintro ⟨h, hsign⟩
      exact h.isReference hsign
  refine ⟨hloose, ?_, hstrict, ?_⟩
  · rw [← exists_replaces_iff fun h => h.not_mem.1]
    exact exists_congr hloose
  · rw [← exists_replaces_iff hfree, exists_congr hstrict, exists_and_right]

/-- A number with a plus sign is no reference of XML, and is decoded all the same. -/
theorem decode_signed :
    decode ['&', '#', '+', '6', '5', ';'] = .ok ['A'] ∧
      ¬ EachBegins IsReference ['&', '#', '+', '6', '5', ';'] := by
  have hdigits : WritesNumber 10 'A'.toNat ['6', '5'] := ⟨0, ['6', '5'], by decide, rfl⟩
  refine ⟨(Replaces.replace (Or.inr (.decimal hdigits)) .nil).decode_eq, fun h => ?_⟩
  exact not_holdsSign_of_eachBegins h (Or.inl (by decide))

end Stencil.Entity
