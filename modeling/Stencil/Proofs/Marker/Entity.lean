import Mathlib.Data.List.Induction
import Stencil.Marker.Entity
import Stencil.Proofs.Text.Search

/-!
# Written values

Each character of a value may be written in several ways: as itself, by a name, or by its number in
decimal or hexadecimal, with leading zeros and with letters of either case. A value is decoded as it
was written, however its characters were: a reference is decoded on its own, whatever follows it, and
what it stands for is not read again. The other way round, a number that is read was written so, but
for a plus sign that may stand in front of it.
-/

namespace Stencil.Entity

open Text

/-- The text is a number written in a base: leading zeros, and its digits in either case. -/
def WritesNumber (base n : Nat) (text : Text) : Prop :=
  ∃ zeros digits, digits.map Char.toLower = Nat.toDigits base n ∧
    text = List.replicate zeros '0' ++ digits

/-- The characters that have a name, with their names. -/
def namedCharacters : List (Text × Char) :=
  [(['a', 'm', 'p'], '&'), (['l', 't'], '<'), (['g', 't'], '>'), (['q', 'u', 'o', 't'], '"'),
    (['a', 'p', 'o', 's'], '\'')]

/-- The text is a character as it may be written in a value between two marks. -/
inductive WritesChar (mark c : Char) : Text → Prop
  | literal (hamp : c ≠ '&') (hmark : c ≠ mark) : WritesChar mark c [c]
  | named {name : Text} (hname : (name, c) ∈ namedCharacters) :
      WritesChar mark c ('&' :: (name ++ [';']))
  | decimal {digits : Text} (hdigits : WritesNumber 10 c.toNat digits) :
      WritesChar mark c ('&' :: ('#' :: digits ++ [';']))
  | hexadecimal {digits : Text} (hdigits : WritesNumber 16 c.toNat digits) :
      WritesChar mark c ('&' :: ('#' :: 'x' :: digits ++ [';']))

/-- The text is a value as it may be written between two marks. -/
inductive WritesValue (mark : Char) : Text → Text → Prop
  | nil : WritesValue mark [] []
  | cons {c : Char} {text value rest : Text} (hchar : WritesChar mark c text)
      (hrest : WritesValue mark value rest) : WritesValue mark (c :: value) (text ++ rest)

/-! ## Digits -/

/-- The characters are the digits of a base, in either case. -/
structure IsDigits (base : Nat) (digit? : Char → Option Nat) : Prop where
  one_lt : 1 < base
  toLower_eq : ∀ c, digit? c.toLower = digit? c
  digitChar_eq : ∀ d < base, digit? d.digitChar = some d

private theorem toNat_toLower (c : Char) :
    c.toLower.toNat = if 65 ≤ c.toNat ∧ c.toNat ≤ 90 then c.toNat + 32 else c.toNat := by
  have hupper : (c.val ≥ 'A'.val ∧ c.val ≤ 'Z'.val) ↔ 65 ≤ c.toNat ∧ c.toNat ≤ 90 := by
    simp only [ge_iff_le, UInt32.le_iff_toNat_le]
    rfl
  delta Char.toLower
  split
  · next h =>
    rw [if_pos (hupper.mp h)]
    change (c.val + ('a'.val - 'A'.val)).toNat = c.val.toNat + 32
    have hle : c.val.toNat ≤ 90 := (hupper.mp h).2
    have hsum : (c.val.toNat + 32) % 2 ^ 32 = c.val.toNat + 32 := by omega
    rw [UInt32.toNat_add]
    exact hsum
  · next h => rw [if_neg (mt hupper.mpr h)]

private theorem decimalDigit?_eq (c : Char) :
    decimalDigit? c = if 48 ≤ c.toNat ∧ c.toNat ≤ 57 then some (c.toNat - 48) else none := rfl

private theorem hexDigit?_eq (c : Char) :
    hexDigit? c =
      if 97 ≤ c.toNat ∧ c.toNat ≤ 102 then some (c.toNat - 97 + 10)
      else if 65 ≤ c.toNat ∧ c.toNat ≤ 70 then some (c.toNat - 65 + 10)
      else if 48 ≤ c.toNat ∧ c.toNat ≤ 57 then some (c.toNat - 48) else none := rfl

theorem isDigits_decimal : IsDigits 10 decimalDigit? where
  one_lt := by decide
  toLower_eq c := by
    rw [decimalDigit?_eq, decimalDigit?_eq, toNat_toLower]
    grind
  digitChar_eq := by decide

theorem isDigits_hexadecimal : IsDigits 16 hexDigit? where
  one_lt := by decide
  toLower_eq c := by
    rw [hexDigit?_eq, hexDigit?_eq, toNat_toLower]
    grind
  digitChar_eq := by decide

theorem exists_of_mem_toDigits {base n : Nat} {c : Char} (hbase : 1 < base)
    (h : c ∈ Nat.toDigits base n) : ∃ d < base, c = d.digitChar := by
  induction n using Nat.strongRecOn with
  | _ n ih =>
    rw [Nat.toDigits_eq_if hbase] at h
    split at h
    · next hlt => exact ⟨n, hlt, List.mem_singleton.mp h⟩
    · next hge =>
      rcases List.mem_append.mp h with hfront | hlast
      · exact ih (n / base) (Nat.div_lt_self (by omega) hbase) hfront
      · exact ⟨n % base, Nat.mod_lt n (by omega), List.mem_singleton.mp hlast⟩

theorem readDigits_append {base value middle : Nat} {digit? : Char → Option Nat} {left : Text}
    (right : Text) (h : readDigits base digit? value left = some middle) :
    readDigits base digit? value (left ++ right) = readDigits base digit? middle right := by
  induction left generalizing value with
  | nil => rw [Option.some.inj h, List.nil_append]
  | cons c left ih =>
    rw [readDigits] at h
    rw [List.cons_append, readDigits]
    cases hdigit : digit? c with
    | none => simp [hdigit] at h
    | some digit =>
      rw [hdigit, Option.bind_some] at h
      rw [Option.bind_some]
      exact ih h

namespace IsDigits

variable {base : Nat} {digit? : Char → Option Nat}

theorem readDigits_zeros (h : IsDigits base digit?) (zeros : Nat) :
    readDigits base digit? 0 (List.replicate zeros '0') = some 0 := by
  have hzero : digit? '0' = some 0 := h.digitChar_eq 0 (Nat.lt_trans Nat.zero_lt_one h.one_lt)
  induction zeros with
  | zero => rfl
  | succ zeros ih => rw [List.replicate_succ, readDigits, hzero, Option.bind_some, Nat.zero_mul, ih]

/-- The digits of a number are read as the number: all but the last one are those of its quotient by
the base. -/
theorem readDigits_eq (h : IsDigits base digit?) {n : Nat} {digits : Text}
    (hdigits : digits.map Char.toLower = Nat.toDigits base n) :
    readDigits base digit? 0 digits = some n := by
  induction n using Nat.strongRecOn generalizing digits with
  | _ n ih =>
    have hlast : ∀ {c : Char} {d : Nat}, d < base → c.toLower = d.digitChar → digit? c = some d := by
      intro c d hd hc
      rw [← h.toLower_eq, hc, h.digitChar_eq d hd]
    rw [Nat.toDigits_eq_if h.one_lt] at hdigits
    split at hdigits
    · next hlt =>
      obtain ⟨c, rfl, hc⟩ := List.map_eq_singleton_iff.mp hdigits
      rw [readDigits, hlast hlt hc, Option.bind_some, Nat.zero_mul, Nat.zero_add, readDigits]
    · next hge =>
      have hbase := h.one_lt
      obtain ⟨front, last, rfl, hfront, hend⟩ := List.map_eq_append_iff.mp hdigits
      obtain ⟨c, rfl, hc⟩ := List.map_eq_singleton_iff.mp hend
      rw [readDigits_append [c] (ih (n / base) (Nat.div_lt_self (by omega) hbase) hfront),
        readDigits, hlast (Nat.mod_lt n (by omega)) hc, Option.bind_some, readDigits,
        Nat.div_add_mod' n base]

variable {n : Nat} {text : Text}

theorem isSome_of_mem (h : IsDigits base digit?) (htext : WritesNumber base n text) :
    ∀ c ∈ text, (digit? c).isSome = true := by
  obtain ⟨zeros, digits, hdigits, rfl⟩ := htext
  intro c hc
  rcases List.mem_append.mp hc with hzero | hdigit
  · rw [List.eq_of_mem_replicate hzero]
    exact Option.isSome_of_mem (h.digitChar_eq 0 (Nat.lt_trans Nat.zero_lt_one h.one_lt))
  · have hmem := List.mem_map_of_mem (f := Char.toLower) hdigit
    rw [hdigits] at hmem
    obtain ⟨d, hd, heq⟩ := exists_of_mem_toDigits h.one_lt hmem
    rw [← h.toLower_eq, heq, h.digitChar_eq d hd]
    rfl

/-- A character that is no digit is in no number. -/
theorem not_mem (h : IsDigits base digit?) (htext : WritesNumber base n text) {c : Char}
    (hc : digit? c = none) : c ∉ text := by
  intro hmem
  have hsome := h.isSome_of_mem htext c hmem
  rw [hc] at hsome
  exact absurd hsome (by decide)

/-- A number is read as it was written. -/
theorem readNumber_eq (h : IsDigits base digit?) (htext : WritesNumber base n text)
    (hplus : digit? '+' = none) : readNumber base digit? text = some n := by
  have hsign := h.not_mem htext hplus
  obtain ⟨zeros, digits, hdigits, rfl⟩ := htext
  have hread : readDigits base digit? 0 (List.replicate zeros '0' ++ digits) = some n := by
    rw [readDigits_append digits (h.readDigits_zeros zeros), h.readDigits_eq hdigits]
  have hne : (List.replicate zeros '0' ++ digits).isEmpty = false := by
    rw [List.isEmpty_eq_false_iff]
    intro hnil
    rw [(List.append_eq_nil_iff.mp hnil).2] at hdigits
    exact Nat.toDigits_ne_nil hdigits.symm
  rw [readNumber, hne, if_neg Bool.false_ne_true, hread]
  rintro rest heq
  rw [heq] at hsign
  exact hsign List.mem_cons_self

end IsDigits

/-! ## Numbers that are read -/

private theorem digit_of_decimalDigit? {c : Char} {d : Nat} (h : decimalDigit? c = some d) :
    d < 10 ∧ c.toLower = d.digitChar := by
  have hchar : ∀ d < 10, (Char.ofNat (48 + d)).toLower = d.digitChar := by decide
  rw [decimalDigit?_eq] at h
  split at h
  · next hle =>
    obtain rfl := Option.some.inj h
    have hlt : c.toNat - 48 < 10 := by omega
    refine ⟨hlt, ?_⟩
    rw [← hchar _ hlt, Nat.add_sub_cancel' hle.1, Char.ofNat_toNat]
  · exact absurd h (by simp)

private theorem digit_of_hexDigit? {c : Char} {d : Nat} (h : hexDigit? c = some d) :
    d < 16 ∧ c.toLower = d.digitChar := by
  have hlower : ∀ d < 6, (Char.ofNat (97 + d)).toLower = (d + 10).digitChar := by decide
  have hupper : ∀ d < 6, (Char.ofNat (65 + d)).toLower = (d + 10).digitChar := by decide
  rw [hexDigit?_eq, ← decimalDigit?_eq] at h
  split at h
  · next hle =>
    obtain rfl := Option.some.inj h
    have hlt : c.toNat - 97 < 6 := by omega
    refine ⟨by omega, ?_⟩
    rw [← hlower _ hlt, Nat.add_sub_cancel' hle.1, Char.ofNat_toNat]
  split at h
  · next hle =>
    obtain rfl := Option.some.inj h
    have hlt : c.toNat - 65 < 6 := by omega
    refine ⟨by omega, ?_⟩
    rw [← hupper _ hlt, Nat.add_sub_cancel' hle.1, Char.ofNat_toNat]
  · obtain ⟨hlt, hc⟩ := digit_of_decimalDigit? h
    exact ⟨by omega, hc⟩

private theorem eq_zero_of_toLower {c : Char} (h : c.toLower = '0') : c = '0' := by
  have hnat := congrArg Char.toNat h
  have hzero : '0'.toNat = 48 := rfl
  rw [toNat_toLower] at hnat
  apply Char.toNat_inj.mp
  split at hnat <;> omega

/-- A digit behind a number multiplies it by the base; a zero in front becomes a leading one. -/
theorem WritesNumber.concat {base n d : Nat} {text : Text} {c : Char} (hbase : 1 < base)
    (h : WritesNumber base n text) (hd : d < base) (hc : c.toLower = d.digitChar) :
    WritesNumber base (n * base + d) (text ++ [c]) := by
  obtain ⟨zeros, digits, hdigits, rfl⟩ := h
  cases n with
  | zero =>
    rw [Nat.toDigits_eq_if hbase, if_pos (by omega)] at hdigits
    obtain ⟨z, rfl, hz⟩ := List.map_eq_singleton_iff.mp hdigits
    obtain rfl := eq_zero_of_toLower hz
    refine ⟨zeros + 1, [c], ?_, ?_⟩
    · rw [Nat.zero_mul, Nat.zero_add, Nat.toDigits_eq_if hbase, if_pos hd, List.map_singleton, hc]
    · rw [List.replicate_succ']
  | succ m =>
    have hge : base ≤ (m + 1) * base := Nat.le_mul_of_pos_left base (Nat.succ_pos m)
    have hdiv : ((m + 1) * base + d) / base = m + 1 := by
      rw [Nat.mul_comm, Nat.mul_add_div (by omega), Nat.div_eq_of_lt hd, Nat.add_zero]
    have hmod : ((m + 1) * base + d) % base = d := by
      rw [Nat.mul_comm, Nat.mul_add_mod, Nat.mod_eq_of_lt hd]
    refine ⟨zeros, digits ++ [c], ?_, by rw [List.append_assoc]⟩
    rw [Nat.toDigits_eq_if hbase, if_neg (by omega), hdiv, hmod, List.map_append, hdigits,
      List.map_singleton, hc]

private theorem readDigits_concat (base value : Nat) (digit? : Char → Option Nat) (front : Text)
    (c : Char) :
    readDigits base digit? value (front ++ [c]) =
      (readDigits base digit? value front).bind fun n => (digit? c).map fun d => n * base + d := by
  induction front generalizing value with
  | nil => cases h : digit? c <;> simp [readDigits, h]
  | cons e front ih =>
    rw [List.cons_append, readDigits, readDigits]
    cases digit? e with
    | none => rfl
    | some d => exact ih _

/-- Digits that are read as a number are a way to write it, by induction on the last digit. -/
private theorem writesNumber_of_readDigits {base n : Nat} {digit? : Char → Option Nat}
    (hbase : 1 < base)
    (hdigit : ∀ {c d}, digit? c = some d → d < base ∧ c.toLower = d.digitChar) {text : Text}
    (hne : text ≠ []) (h : readDigits base digit? 0 text = some n) : WritesNumber base n text := by
  induction text using List.reverseRecOn generalizing n with
  | nil => exact absurd rfl hne
  | append_singleton front c ih =>
    rw [readDigits_concat] at h
    obtain ⟨m, hfront, hlast⟩ := Option.bind_eq_some_iff.mp h
    obtain ⟨d, hd, rfl⟩ := Option.map_eq_some_iff.mp hlast
    obtain ⟨hlt, hc⟩ := hdigit hd
    by_cases hnil : front = []
    · subst hnil
      obtain rfl := Option.some.inj hfront
      refine ⟨0, [c], ?_, rfl⟩
      rw [Nat.zero_mul, Nat.zero_add, Nat.toDigits_eq_if hbase, if_pos hlt, List.map_singleton, hc]
    · exact (ih hnil hfront).concat hbase hlt hc

/-- A number that is read is written in digits, behind at most one plus sign. -/
private theorem exists_sign_of_readNumber {base n : Nat} {digit? : Char → Option Nat}
    (hbase : 1 < base)
    (hdigit : ∀ {c d}, digit? c = some d → d < base ∧ c.toLower = d.digitChar) {text : Text}
    (h : readNumber base digit? text = some n) :
    ∃ sign digits, text = sign ++ digits ∧ (sign = [] ∨ sign = ['+']) ∧
      WritesNumber base n digits := by
  have hwrites : ∀ {digits : Text}, (if digits.isEmpty then none
      else readDigits base digit? 0 digits) = some n → WritesNumber base n digits := by
    intro digits hread
    split at hread
    · exact absurd hread (by simp)
    · next hne =>
      rw [List.isEmpty_iff] at hne
      exact writesNumber_of_readDigits hbase hdigit hne hread
  by_cases hplus : ∃ rest, text = '+' :: rest
  · obtain ⟨rest, rfl⟩ := hplus
    exact ⟨['+'], rest, rfl, Or.inr rfl, hwrites h⟩
  · rw [readNumber] at h
    · exact ⟨[], text, rfl, Or.inl rfl, hwrites h⟩
    · exact fun rest heq => hplus ⟨rest, heq⟩

theorem exists_sign_of_decimal {n : Nat} {text : Text}
    (h : readNumber 10 decimalDigit? text = some n) :
    ∃ sign digits, text = sign ++ digits ∧ (sign = [] ∨ sign = ['+']) ∧ WritesNumber 10 n digits :=
  exists_sign_of_readNumber (by decide) digit_of_decimalDigit? h

theorem exists_sign_of_hexadecimal {n : Nat} {text : Text}
    (h : readNumber 16 hexDigit? text = some n) :
    ∃ sign digits, text = sign ++ digits ∧ (sign = [] ∨ sign = ['+']) ∧ WritesNumber 16 n digits :=
  exists_sign_of_readNumber (by decide) digit_of_hexDigit? h

/-! ## References -/

theorem ofCodePoint?_toNat (c : Char) : ofCodePoint? c.toNat = some c := by
  have hvalid : c.toNat.isValidChar := c.valid
  rw [ofCodePoint?, if_pos hvalid, Char.ofNat_toNat]

theorem char?_of_named {name : Text} {c : Char} (h : (name, c) ∈ namedCharacters) :
    char? name = some c := by
  simp only [namedCharacters, List.mem_cons, List.not_mem_nil, or_false, Prod.mk.injEq] at h
  rcases h with ⟨rfl, rfl⟩ | ⟨rfl, rfl⟩ | ⟨rfl, rfl⟩ | ⟨rfl, rfl⟩ | ⟨rfl, rfl⟩ <;> rfl

theorem char?_hexadecimal {c : Char} {digits : Text} (h : WritesNumber 16 c.toNat digits) :
    char? ('#' :: 'x' :: digits) = some c := by
  rw [char?, isDigits_hexadecimal.readNumber_eq h (by decide), Option.bind_some, ofCodePoint?_toNat]

theorem char?_decimal {c : Char} {digits : Text} (h : WritesNumber 10 c.toNat digits) :
    char? ('#' :: digits) = some c := by
  have hx : ∀ rest, digits ≠ 'x' :: rest := by
    rintro rest rfl
    exact isDigits_decimal.not_mem h (by decide) List.mem_cons_self
  rw [char?, isDigits_decimal.readNumber_eq h (by decide), Option.bind_some, ofCodePoint?_toNat]
  exact hx

/-- A reference is decoded on its own. -/
theorem decode_reference {name rest : Text} {c : Char} (hname : ';' ∉ name)
    (hchar : char? name = some c) :
    decode ('&' :: (name ++ ';' :: rest)) = (decode rest).map (c :: ·) := by
  have hfind : find? [';'] (name ++ ';' :: rest) = some name.length := by
    have hfree : ¬ [';'] <:+: name ++ [';'].dropLast := by
      intro hocc
      apply hname
      simpa using hocc.subset (List.mem_singleton_self ';')
    have hfound := @find?_append _ _ _ _ _ rest (by decide) hfree
    simpa using hfound
  have hdrop : (name ++ ';' :: rest).drop (name.length + 1) = rest := by
    rw [List.drop_length_add_append]
    rfl
  rw [decode, if_pos (by decide), hfind]
  simp only [List.take_left, hchar, hdrop]

theorem decode_cons {c : Char} (rest : Text) (hc : c ≠ '&') :
    decode (c :: rest) = (decode rest).map (c :: ·) := by
  rw [decode, if_neg (by simpa using hc)]

/-- A character that is written is decoded on its own. -/
theorem WritesChar.decode_append {mark c : Char} {text : Text} (h : WritesChar mark c text)
    (rest : Text) : decode (text ++ rest) = (decode rest).map (c :: ·) := by
  have hreference : ∀ {name : Text}, ';' ∉ name → char? name = some c →
      decode ('&' :: (name ++ [';']) ++ rest) = (decode rest).map (c :: ·) := by
    intro name hname hchar
    rw [List.cons_append, List.append_assoc]
    exact decode_reference hname hchar
  cases h with
  | literal hamp _ => exact decode_cons rest hamp
  | named hname =>
    refine hreference ?_ (char?_of_named hname)
    exact (by decide : ∀ pair ∈ namedCharacters, ';' ∉ pair.1) _ hname
  | decimal hdigits =>
    have hend := isDigits_decimal.not_mem hdigits (c := ';') (by decide)
    exact hreference (by simpa using hend) (char?_decimal hdigits)
  | hexadecimal hdigits =>
    have hend := isDigits_hexadecimal.not_mem hdigits (c := ';') (by decide)
    exact hreference (by simpa using hend) (char?_hexadecimal hdigits)

/-- A value is decoded as it was written. -/
theorem WritesValue.decode_eq {mark : Char} {value text : Text} (h : WritesValue mark value text) :
    decode text = .ok value := by
  induction h with
  | nil => rw [decode]
  | cons hchar _ ih =>
    rw [hchar.decode_append, ih]
    rfl

/-- A value that is written between two quotation marks does not hold them. -/
theorem WritesValue.mark_not_mem {mark : Char} {value text : Text}
    (h : WritesValue mark value text) (hmark : mark = '"' ∨ mark = '\'') : mark ∉ text := by
  induction h with
  | nil => exact List.not_mem_nil
  | cons hchar _ ih =>
    rw [List.mem_append, not_or]
    refine ⟨?_, ih⟩
    cases hchar with
    | literal _ hne => simpa using Ne.symm hne
    | named hname =>
      have hnames : ∀ pair ∈ namedCharacters, '"' ∉ pair.1 ∧ '\'' ∉ pair.1 := by decide
      have hfree := hnames _ hname
      rcases hmark with rfl | rfl <;> simp [hfree]
    | decimal hdigits =>
      have hfree : mark ∉ _ :=
        isDigits_decimal.not_mem hdigits (by rcases hmark with rfl | rfl <;> decide)
      rcases hmark with rfl | rfl <;> simpa using hfree
    | hexadecimal hdigits =>
      have hfree : mark ∉ _ :=
        isDigits_hexadecimal.not_mem hdigits (by rcases hmark with rfl | rfl <;> decide)
      rcases hmark with rfl | rfl <;> simpa using hfree

end Stencil.Entity
