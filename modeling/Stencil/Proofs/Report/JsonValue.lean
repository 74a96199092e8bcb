import Mathlib.Data.List.Forall2
import Stencil.Report.JsonValue

/-!
# Strings of JSON

A string of JSON stands between quotation marks, one character after the other: quotation marks,
backslashes and control characters are escaped, and every other character stands for itself. A text
is written as a string in one way.
-/

namespace Stencil.JsonValue

/-- The sixteen digits of a code. -/
def hexDigits : List Char :=
  ['0', '1', '2', '3', '4', '5', '6', '7', '8', '9', 'a', 'b', 'c', 'd', 'e', 'f']

/-- What a character is written as in a string. -/
inductive Escapes : Char → Text → Prop
  | quotationMark : Escapes '"' ['\\', '"']
  | backslash : Escapes '\\' ['\\', '\\']
  | backspace : Escapes '\x08' ['\\', 'b']
  | tab : Escapes '\t' ['\\', 't']
  | lineFeed : Escapes '\n' ['\\', 'n']
  | formFeed : Escapes '\x0c' ['\\', 'f']
  | carriageReturn : Escapes '\r' ['\\', 'r']
  /-- The control characters without a letter of their own are written by their codes. -/
  | control {c high low : Char} (hcontrol : c.toNat < 32)
      (hother : c ∉ ['\x08', '\t', '\n', '\x0c', '\r'])
      (hhigh : hexDigits[c.toNat / 16]? = some high) (hlow : hexDigits[c.toNat % 16]? = some low) :
      Escapes c ['\\', 'u', '0', '0', high, low]
  | plain {c : Char} (hcontrol : 32 ≤ c.toNat) (hmark : c ≠ '"') (hbackslash : c ≠ '\\') :
      Escapes c [c]

/-- The string that a text is written as. -/
def IsString (text written : Text) : Prop :=
  ∃ escaped : List Text, List.Forall₂ Escapes text escaped ∧
    written = '"' :: escaped.flatten ++ ['"']

theorem hexDigits_getElem? {value : Nat} (h : value < 16) :
    hexDigits[value]? = some (hexDigit value) := by
  have hall : ∀ value < 16, hexDigits[value]? = some (hexDigit value) := by decide
  exact hall value h

theorem escapes_escapeChar (c : Char) : Escapes c (escapeChar c) := by
  by_cases hmark : c = '"'
  · exact hmark ▸ .quotationMark
  by_cases hbackslash : c = '\\'
  · exact hbackslash ▸ .backslash
  by_cases hbackspace : c = '\x08'
  · exact hbackspace ▸ .backspace
  by_cases htab : c = '\t'
  · exact htab ▸ .tab
  by_cases hfeed : c = '\n'
  · exact hfeed ▸ .lineFeed
  by_cases hform : c = '\x0c'
  · exact hform ▸ .formFeed
  by_cases hreturn : c = '\r'
  · exact hreturn ▸ .carriageReturn
  simp only [escapeChar, beq_iff_eq, hmark, hbackslash, hbackspace, htab, hfeed, hform, hreturn,
    if_false]
  split
  · next hcontrol =>
    have hlow : hexDigit c.toNat = hexDigit (c.toNat % 16) := by
      rw [hexDigit, hexDigit, Nat.mod_mod]
    rw [hlow]
    refine .control hcontrol ?_ (hexDigits_getElem? (by omega)) (hexDigits_getElem? (by omega))
    simp [hbackspace, htab, hfeed, hform, hreturn]
  · next hcontrol => exact .plain (by omega) hmark hbackslash

/-- No two rules fit the same character. -/
theorem Escapes.unique {c : Char} {written other : Text} (h : Escapes c written)
    (hother : Escapes c other) : written = other := by
  cases h <;> cases hother <;> simp_all <;> omega

theorem escapes_iff (c : Char) (written : Text) : Escapes c written ↔ escapeChar c = written := by
  constructor
  · exact (escapes_escapeChar c).unique
  · rintro rfl
    exact escapes_escapeChar c

/-- Items that are written in one way each are written in one way together. -/
theorem forall₂_iff_map_eq {α β : Type} {R : α → β → Prop} {f : α → β}
    (h : ∀ item written, R item written ↔ f item = written) {items : List α}
    {writings : List β} : List.Forall₂ R items writings ↔ items.map f = writings := by
  obtain rfl : R = fun item written => f item = written := by
    funext item written
    exact propext (h item written)
  have hmap := @List.forall₂_map_left_iff _ _ _ Eq f items writings
  rw [List.forall₂_eq_eq_eq] at hmap
  exact hmap.symm

theorem isString_iff {text written : Text} : IsString text written ↔ quote text = written := by
  constructor
  · rintro ⟨escaped, hescaped, rfl⟩
    rw [← (forall₂_iff_map_eq escapes_iff).mp hescaped, quote, List.flatMap_def]
  · rintro rfl
    exact ⟨_, (forall₂_iff_map_eq escapes_iff).mpr rfl, by rw [quote, List.flatMap_def]⟩

/-- The items of an array stand between commas. -/
theorem compactItems_eq (items : List JsonValue) :
    compactItems items = [','].intercalate (items.map compact) := by
  induction items with
  | nil => rfl
  | cons item rest ih =>
    cases rest with
    | nil => simp [compactItems]
    | cons next rest =>
      rw [compactItems, ih]
      simp only [List.map_cons, List.intercalate_cons_cons, List.append_assoc,
        List.singleton_append]

end Stencil.JsonValue
