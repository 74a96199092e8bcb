import Stencil.Text.Basic

/-!
# Sequences that steer a terminal

An escape character begins a sequence that a terminal obeys and does not show. A bracket after it
opens a sequence that a letter or sign ends, a closing bracket opens one that ends at a bell or at
an escape with a backslash, and any other character is the whole rest of it.
-/

namespace Stencil.Text

/-- The character that begins a sequence. -/
def escape : Char := '\x1b'

/-- The characters that end a sequence opened by a bracket. -/
def isFinal (c : Char) : Bool := '\x40' ≤ c && c ≤ '\x7e'

/-- How many characters are left of a sequence that a bracket opened. -/
def controlLength : Text → Nat
  | [] => 0
  | c :: rest => if isFinal c then 1 else controlLength rest + 1

/-- How many characters are left of a sequence that a closing bracket opened, of which `last` is
the latest character. -/
def commandLength (last : Char) : Text → Nat
  | [] => 0
  | c :: rest =>
    if c == '\x07' || (c == '\\' && last == escape) then 1 else commandLength c rest + 1

/-- How many characters of the text behind an escape belong to its sequence. -/
def sequenceLength : Text → Nat
  | [] => 0
  | c :: rest =>
    if c == '[' then controlLength rest + 1
    else if c == ']' then commandLength c rest + 1
    else 1

/-- A character that a terminal shows, with the sequences in front of it. -/
structure Shown where
  sequences : Text
  char : Char
  deriving DecidableEq, Repr

namespace Shown

/-- The character behind its sequences. -/
def text (shown : Shown) : Text := shown.sequences ++ [shown.char]

end Shown

/-- Take a text apart into the characters that are shown and the sequences behind the last of
them. `sequences` are those read since the last shown character, reversed, and `skip` counts the
characters that belong to the sequence at hand. -/
def takeApart (sequences : Text) (skip : Nat) : Text → List Shown × Text
  | [] => ([], sequences.reverse)
  | c :: rest =>
    match skip with
    | skip + 1 => takeApart (c :: sequences) skip rest
    | 0 =>
      if c = escape then takeApart (c :: sequences) (sequenceLength rest) rest
      else
        let (shown, ending) := takeApart [] 0 rest
        (⟨sequences.reverse, c⟩ :: shown, ending)

/-- Nothing is lost when a text is taken apart. -/
theorem flatMap_takeApart (sequences : Text) (skip : Nat) (text : Text) :
    (takeApart sequences skip text).1.flatMap Shown.text ++ (takeApart sequences skip text).2 =
      sequences.reverse ++ text := by
  induction text generalizing sequences skip with
  | nil => simp [takeApart]
  | cons c rest ih =>
    match skip with
    | skip + 1 => simp [takeApart, ih]
    | 0 =>
      by_cases h : c = escape
      · simp [takeApart, h, ih]
      · simpa [takeApart, h, Shown.text] using ih [] 0

/-- The characters of a text that a terminal shows. -/
def visible (text : Text) : Text := (takeApart [] 0 text).1.map Shown.char

end Stencil.Text
