import Stencil.Text.Basic

/-!
# Numbers and moments in TOML

Which words are numbers, dates and times. A word is a run of letters, digits and the signs that
occur in such values. Nothing is computed from a number except that it is not too large to be
represented.
-/

namespace Stencil.Toml

/-- Whether a character is one of the ten digits. -/
def isDigit (c : Char) : Bool := '0' ≤ c && c ≤ '9'

/-- The value of a digit of any base up to sixteen. -/
def digitValue (c : Char) : Nat :=
  if isDigit c then c.toNat - '0'.toNat
  else if 'a' ≤ c && c ≤ 'f' then c.toNat - 'a'.toNat + 10
  else if 'A' ≤ c && c ≤ 'F' then c.toNat - 'A'.toNat + 10
  else 16

/-- The digits of a base, with single underscores between digits only. -/
def digits? (base : Nat) (word : Text) : Option Text :=
  let groups := Text.cut '_' word
  if groups.all fun group => !group.isEmpty && group.all (digitValue · < base)
  then some groups.flatten else none

/-- The number that digits denote. -/
def valueOf (base : Nat) (digits : Text) : Nat :=
  digits.foldl (fun value c => value * base + digitValue c) 0

/-- A sign, if there is one, and the rest. -/
def signed : Text → Bool × Text
  | '+' :: rest => (false, rest)
  | '-' :: rest => (true, rest)
  | word => (false, word)

/-- The digits of a decimal integer: no zero in front of other digits. -/
def decimal? (word : Text) : Option Text :=
  match digits? 10 word with
  | some ('0' :: _ :: _) => none
  | digits => digits

/-- Whether a word is an integer of at most 128 bits. -/
def isInteger (word : Text) : Bool :=
  let fits (base : Nat) (word : Text) : Bool :=
    (digits? base word).any fun digits => valueOf base digits < Nat.pow 2 128
  match word with
  | '0' :: 'x' :: rest => fits 16 rest
  | '0' :: 'o' :: rest => fits 8 rest
  | '0' :: 'b' :: rest => fits 2 rest
  | word =>
    let (negative, rest) := signed word
    (decimal? rest).any fun digits =>
      if negative then valueOf 10 digits ≤ Nat.pow 2 127 else valueOf 10 digits < Nat.pow 2 128

/-- Whether the decimal number of some digits and an exponent rounds to a finite binary64 number. -/
def isFinite (digits : Text) (exponent : Int) : Bool :=
  let significand := valueOf 10 digits
  let magnitude := (digits.dropWhile (· == '0')).length + exponent
  let limit := Nat.pow 2 1024 - Nat.pow 2 970
  if significand = 0 ∨ magnitude < 300 then true
  else if magnitude > 320 then false
  else if 0 ≤ exponent then significand * Nat.pow 10 exponent.toNat < limit
  else significand < limit * Nat.pow 10 (-exponent).toNat

/-- The part of a word before its exponent mark, and the part after it if there is a mark. -/
def cutExponent (word : Text) : Text × Option Text :=
  let isMark (c : Char) : Bool := c == 'e' || c == 'E'
  match word.dropWhile (!isMark ·) with
  | [] => (word, none)
  | _ :: rest => (word.takeWhile (!isMark ·), some rest)

/-- Whether a word is a number with a fraction, an exponent or both, or a special number. -/
def isFloat (word : Text) : Bool :=
  let rest := (signed word).2
  if rest = ['i', 'n', 'f'] ∨ rest = ['n', 'a', 'n'] then true
  else
    let (mantissa, exponent) := cutExponent rest
    let whole := mantissa.takeWhile (· != '.')
    let fraction := match mantissa.dropWhile (· != '.') with
      | [] => if exponent.isSome then some [] else none
      | _ :: rest => digits? 10 rest
    let power : Option Int := match exponent with
      | none => some 0
      | some word =>
        let (negative, rest) := signed word
        (digits? 10 rest).map fun digits =>
          if negative then -Int.ofNat (valueOf 10 digits) else Int.ofNat (valueOf 10 digits)
    match decimal? whole, fraction, power with
    | some whole, some fraction, some power =>
      isFinite (whole ++ fraction) (power - fraction.length)
    | _, _, _ => false

/-- A number of exactly `count` digits between two bounds, and what follows it. -/
def field? (count low high : Nat) (word : Text) : Option (Nat × Text) :=
  let digits := word.take count
  let value := valueOf 10 digits
  if digits.length = count ∧ digits.all isDigit ∧ low ≤ value ∧ value ≤ high
  then some (value, word.drop count) else none

/-- What follows one given character. -/
def after? (mark : Char) : Text → Option Text
  | c :: rest => if c == mark then some rest else none
  | [] => none

/-- The number of days of a month. -/
def daysIn (year month : Nat) : Nat :=
  if month = 2 then
    if year % 4 = 0 ∧ (year % 100 ≠ 0 ∨ year % 400 = 0) then 29 else 28
  else if month = 4 ∨ month = 6 ∨ month = 9 ∨ month = 11 then 30
  else 31

/-- What follows a date. -/
def date? (word : Text) : Option Text := do
  let (year, word) ← field? 4 0 9999 word
  let (month, word) ← field? 2 1 12 (← after? '-' word)
  let (_, word) ← field? 2 1 (daysIn year month) (← after? '-' word)
  return word

/-- What follows a time of day, whose seconds and their fraction may be left out. -/
def time? (word : Text) : Option Text := do
  let (_, word) ← field? 2 0 23 word
  let (_, word) ← field? 2 0 59 (← after? ':' word)
  match after? ':' word with
  | none => return word
  | some word =>
    let (_, word) ← field? 2 0 60 word
    match after? '.' word with
    | none => return word
    | some word => if word.head?.any isDigit then return word.dropWhile isDigit else failure

/-- Whether a word is a distance from universal time. -/
def isOffset : Text → Bool
  | ['Z'] | ['z'] => true
  | c :: word =>
    (c == '+' || c == '-') &&
      ((field? 2 0 23 word).bind fun (_, word) => (after? ':' word).bind (field? 2 0 59)).any
        (·.2.isEmpty)
  | [] => false

/-- Whether a word is a date, a time of day, or a date and a time, with or without an offset. -/
def isMoment (word : Text) : Bool :=
  match date? word with
  | some [] => true
  | some (mark :: rest) =>
    (mark == 'T' || mark == 't' || mark == ' ') &&
      (time? rest).any fun rest => rest.isEmpty || isOffset rest
  | none => (time? word).any (·.isEmpty)

end Stencil.Toml
