import Stencil.Text.Search

/-!
# Character references

An attribute value may hold references: the five predefined names, and code points in decimal or
hexadecimal. Decoding is one pass from left to right, so a decoded character is never read as part
of another reference.
-/

namespace Stencil.Entity

/-- The value of a decimal digit. -/
def decimalDigit? (c : Char) : Option Nat :=
  if '0' ≤ c ∧ c ≤ '9' then some (c.toNat - '0'.toNat) else none

/-- The value of a hexadecimal digit of either case. -/
def hexDigit? (c : Char) : Option Nat :=
  if 'a' ≤ c ∧ c ≤ 'f' then some (c.toNat - 'a'.toNat + 10)
  else if 'A' ≤ c ∧ c ≤ 'F' then some (c.toNat - 'A'.toNat + 10)
  else decimalDigit? c

/-- Read digits of a base after the number `value` that is already read. -/
def readDigits (base : Nat) (digit? : Char → Option Nat) (value : Nat) : Text → Option Nat
  | [] => some value
  | c :: rest => (digit? c).bind fun digit => readDigits base digit? (value * base + digit) rest

/-- An unsigned number: at least one digit, after at most one plus sign. -/
def readNumber (base : Nat) (digit? : Char → Option Nat) (digits : Text) : Option Nat :=
  let digits := match digits with
    | '+' :: rest => rest
    | digits => digits
  if digits.isEmpty then none else readDigits base digit? 0 digits

/-- The character of a code point; surrogates and numbers beyond the last plane have none. -/
def ofCodePoint? (n : Nat) : Option Char := if n.isValidChar then some (Char.ofNat n) else none

/-- The character that a reference names, given the text between the ampersand and the semicolon. -/
def char? : Text → Option Char
  | ['a', 'm', 'p'] => some '&'
  | ['l', 't'] => some '<'
  | ['g', 't'] => some '>'
  | ['q', 'u', 'o', 't'] => some '"'
  | ['a', 'p', 'o', 's'] => some '\''
  | '#' :: 'x' :: digits => (readNumber 16 hexDigit? digits).bind ofCodePoint?
  | '#' :: digits => (readNumber 10 decimalDigit? digits).bind ofCodePoint?
  | _ => none

/--
The text with its references replaced. On failure it is the first reference that names no
character, or what follows the first ampersand that no semicolon follows.
-/
def decode : Text → Except Text Text
  | [] => .ok []
  | c :: rest =>
    if c == '&' then
      match Text.find? [';'] rest with
      | none => .error rest
      | some length =>
        match char? (rest.take length) with
        | none => .error (rest.take length)
        | some decoded => (decode (rest.drop (length + 1))).map (decoded :: ·)
    else (decode rest).map (c :: ·)
  termination_by raw => raw.length
  decreasing_by
    all_goals simp only [List.length_drop, List.length_cons]; omega

end Stencil.Entity
