import Stencil.Text.Basic

/-!
# JSON values

The JSON that reports are written in: on one line, or one item a line with two spaces for each
level. The names of an object are in order. Strings escape what JSON asks for and nothing else.
-/

namespace Stencil

/-- A JSON value of a report. -/
inductive JsonValue where
  | bool (value : Bool)
  | number (value : Nat)
  | string (text : Text)
  | array (items : List JsonValue)
  | object (fields : List (Text × JsonValue))

namespace JsonValue

/-- An object whose names are put in order. -/
def ofFields (fields : List (Text × JsonValue)) : JsonValue :=
  .object (fields.mergeSort fun left right => Text.atMost left.1 right.1)

/-- A hexadecimal digit. -/
def hexDigit (value : Nat) : Char := Nat.digitChar (value % 16)

/-- A character of a string. -/
def escapeChar (c : Char) : Text :=
  if c == '"' then ['\\', '"']
  else if c == '\\' then ['\\', '\\']
  else if c == '\x08' then ['\\', 'b']
  else if c == '\x09' then ['\\', 't']
  else if c == '\x0a' then ['\\', 'n']
  else if c == '\x0c' then ['\\', 'f']
  else if c == '\x0d' then ['\\', 'r']
  else if c.toNat < 0x20 then ['\\', 'u', '0', '0', hexDigit (c.toNat / 16), hexDigit c.toNat]
  else [c]

/-- A string in quotation marks. -/
def quote (text : Text) : Text := '"' :: text.flatMap escapeChar ++ ['"']

/-- A number in decimal digits. -/
def digits (value : Nat) : Text := Nat.toDigits 10 value

/-- The words for truth values. -/
def boolText (value : Bool) : Text := if value then ['t', 'r', 'u', 'e'] else ['f', 'a', 'l', 's', 'e']

mutual

/-- A value on one line, without spaces. -/
def compact : JsonValue → Text
  | bool value => boolText value
  | number value => digits value
  | string text => quote text
  | array items => '[' :: compactItems items ++ [']']
  | object fields => '\x7b' :: compactFields fields ++ ['\x7d']

/-- The items of an array, with commas between them. -/
def compactItems : List JsonValue → Text
  | [] => []
  | [item] => compact item
  | item :: next :: rest => compact item ++ ',' :: compactItems (next :: rest)

/-- The fields of an object, with commas between them. -/
def compactFields : List (Text × JsonValue) → Text
  | [] => []
  | [(name, value)] => quote name ++ ':' :: compact value
  | (name, value) :: next :: rest =>
    quote name ++ ':' :: compact value ++ ',' :: compactFields (next :: rest)

end

/-- The line break and the spaces in front of an item of some level. -/
def newline (level : Nat) : Text := '\n' :: List.replicate (2 * level) ' '

mutual

/-- A value with every item on a line of its own; `level` is that of the value. -/
def pretty (level : Nat) : JsonValue → Text
  | bool value => boolText value
  | number value => digits value
  | string text => quote text
  | array [] => ['[', ']']
  | array items => '[' :: prettyItems (level + 1) items ++ newline level ++ [']']
  | object [] => ['\x7b', '\x7d']
  | object fields => '\x7b' :: prettyFields (level + 1) fields ++ newline level ++ ['\x7d']

/-- The items of an array, a line each. -/
def prettyItems (level : Nat) : List JsonValue → Text
  | [] => []
  | [item] => newline level ++ pretty level item
  | item :: next :: rest =>
    newline level ++ pretty level item ++ ',' :: prettyItems level (next :: rest)

/-- The fields of an object, a line each. -/
def prettyFields (level : Nat) : List (Text × JsonValue) → Text
  | [] => []
  | [(name, value)] => newline level ++ quote name ++ ':' :: ' ' :: pretty level value
  | (name, value) :: next :: rest =>
    newline level ++ quote name ++ ':' :: ' ' :: pretty level value ++
      ',' :: prettyFields level (next :: rest)

end

end JsonValue

end Stencil
