import Stencil.Marker.Entity
import Stencil.Toml.Scalar
import Stencil.Toml.Value

/-!
# Reading TOML

A reader takes what it understands from the front of a text, or fails. Repetition is bounded by
the length of the text, since every round takes at least one character, and nesting by a limit.
-/

namespace Stencil.Toml

/-- Take something from the front of a text, or fail. -/
abbrev Reader (α : Type) := StateT Text Option α

namespace Reader

/-- The next character, which stays. -/
def peek : Reader (Option Char) := do return (← get).head?

/-- Take the next character. -/
def next : Reader Char := do
  match ← get with
  | c :: rest => set rest; return c
  | [] => failure

/-- Take the given characters, if they are next. -/
def accept (word : Text) : Reader Bool := do
  let text ← get
  if word.isPrefixOf text then set (text.drop word.length); return true
  else return false

/-- Take the given characters. -/
def expect (word : Text) : Reader Unit := do
  if !(← accept word) then failure

/-- Take the longest run of characters that satisfy `p`. -/
def run (p : Char → Bool) : Reader Text := do
  let text ← get
  set (text.dropWhile p)
  return text.takeWhile p

/-- Gather what a step yields until it yields nothing, in at most `rounds` rounds. -/
def collectIn {α : Type} (step : Reader (Option α)) : Nat → Reader (List α)
  | 0 => failure
  | rounds + 1 => do
    match ← step with
    | none => return []
    | some item => return item :: (← collectIn step rounds)

/-- Gather what a step yields until it yields nothing; each round takes a character. -/
def collect {α : Type} (step : Reader (Option α)) : Reader (List α) := do
  collectIn step ((← get).length + 1)

/-- Whether a character may stand in strings and comments as it is. -/
def isPrintable (c : Char) : Bool := c == '\t' || (' ' ≤ c && c != '\x7f')

/-- Take a line feed, alone or after a carriage return, as it is written. -/
def lineFeed? : Reader (Option Text) := do
  if ← accept ['\n'] then return some ['\n']
  else if ← accept ['\r', '\n'] then return some ['\r', '\n']
  else return none

/-- Take a line feed, alone or after a carriage return. -/
def newline : Reader Bool := do return (← lineFeed?).isSome

/-- Skip blanks. -/
def blanks : Reader Unit := do discard <| run Text.isBlank

/-- Skip a comment, if one begins here. -/
def comment : Reader Bool := do
  if ← accept ['#'] then
    discard <| run isPrintable
    return true
  else return false

/-- Skip blanks, comments and line ends. -/
def trivia : Reader Unit := do
  let step : Reader (Option Unit) := do
    blanks
    if ← comment then return some ()
    if ← newline then return some ()
    return none
  discard <| collect step

/-- Skip to the end of a line on which nothing but a comment may follow. -/
def lineEnd : Reader Unit := do
  blanks
  discard comment
  if (← get).isEmpty then return
  if !(← newline) then failure

/-- The character of a number of exactly `count` hexadecimal digits. -/
def codePoint (count : Nat) : Reader Char := do
  let text ← get
  let digits := text.take count
  if digits.length ≠ count then failure
  let n ← Entity.readDigits 16 Entity.hexDigit? 0 digits
  set (text.drop count)
  Entity.ofCodePoint? n

/-- The character of an escape, after its backslash. -/
def escape : Reader Char := do
  match ← next with
  | 'b' => return '\x08'
  | 't' => return '\t'
  | 'n' => return '\n'
  | 'f' => return '\x0c'
  | 'r' => return '\r'
  | 'e' => return '\x1b'
  | '"' => return '"'
  | '\\' => return '\\'
  | 'x' => codePoint 2
  | 'u' => codePoint 4
  | 'U' => codePoint 8
  | _ => failure

/-- The text between two marks on one line; with a backslash as escape if `escapes`. -/
def lineText (mark : Char) (escapes : Bool) : Reader Text := do
  expect [mark]
  collect do
    let c ← next
    if c == mark then return none
    if escapes && c == '\\' then return some (← escape)
    if isPrintable c then return some c
    failure

/-- Skip a backslash's line end, with the blank lines and blanks that follow. -/
def continuation : Reader Bool := do
  let text ← get
  blanks
  if ← newline then
    discard <| collect do
      blanks
      if ← newline then return some ()
      return none
    return true
  set text
  return false

/-- How many times a mark stands next, up to a number. -/
def marks (mark : Char) (limit : Nat) : Reader Nat := do
  let count := ((← get).take limit).takeWhile (· == mark)
  set ((← get).drop count.length)
  return count.length

/-- The text between two triple marks. A line end next to the first is dropped, and others are kept
as they are written; one or two marks may stand inside, also next to the end. -/
def longText (mark : Char) (escapes : Bool) : Reader Text := do
  expect [mark, mark, mark]
  discard newline
  let step : Reader (Option Text × Bool) := do
    let count ← marks mark 5
    if 3 ≤ count then return (some (List.replicate (count - 3) mark), true)
    if 0 < count then return (some (List.replicate count mark), false)
    if let some written ← lineFeed? then return (some written, false)
    let c ← next
    if escapes && c == '\\' then
      if ← continuation then return (some [], false)
      return (some [← escape], false)
    if isPrintable c then return (some [c], false)
    failure
  rounds step ((← get).length + 1)
where
  /-- Put together what the steps yield, up to the one that says it is the last. -/
  rounds (step : Reader (Option Text × Bool)) : Nat → Reader Text
    | 0 => failure
    | count + 1 => do
      match ← step with
      | (none, _) => failure
      | (some text, true) => return text
      | (some text, false) => return text ++ (← rounds step count)

/-- A string in any of its four spellings. -/
def string : Reader Text := do
  let text ← get
  if ['"', '"', '"'].isPrefixOf text then longText '"' true
  else if ['\'', '\'', '\''].isPrefixOf text then longText '\'' false
  else if ['"'].isPrefixOf text then lineText '"' true
  else lineText '\'' false

/-- Whether a character may stand in a key without quotes. -/
def isBareKey (c : Char) : Bool := c.isAlphanum || c == '_' || c == '-'

/-- One part of a key. -/
def simpleKey : Reader Text := do
  match ← peek with
  | some '"' => lineText '"' true
  | some '\'' => lineText '\'' false
  | _ =>
    let word ← run isBareKey
    if word.isEmpty then failure
    return word

/-- How deep values may nest, and how many parts a key may have. -/
def depthLimit : Nat := 80

/-- A key: its parts, with dots and blanks between them. -/
def key : Reader (List Text) := do
  let first ← simpleKey
  let step : Reader (Option Text) := do
    blanks
    if ← accept ['.'] then
      blanks
      return some (← simpleKey)
    return none
  let path := first :: (← collect step)
  if depthLimit < path.length then failure
  return path

/-- Whether a character may stand in a number, a moment or a truth value. -/
def isWord (c : Char) : Bool :=
  c.isAlphanum || c == '+' || c == '-' || c == '_' || c == '.' || c == ':'

/-- The time that a blank separates from the date in front of it, if there is one. -/
def timeAfterBlank : Reader Text := do
  match ← get with
  | ' ' :: c :: rest =>
    if isDigit c then
      set (c :: rest)
      return ' ' :: (← run isWord)
    return []
  | _ => return []

/-- A value that holds no other values. -/
def scalar : Reader Value := do
  match ← peek with
  | some '"' | some '\'' => return .text (← string)
  | _ =>
    let word ← run isWord
    if word == ['t', 'r', 'u', 'e'] then return .boolean true
    if word == ['f', 'a', 'l', 's', 'e'] then return .boolean false
    if isInteger word || isFloat word then return .number
    if date? word == some [] then
      if isMoment (word ++ (← timeAfterBlank)) then return .moment
      failure
    if isMoment word then return .moment
    failure

/-- The items of an array or an inline table up to its end; a comma may follow the last one. -/
def items {α : Type} (stop : Char) (item : Reader α) : Reader (List α) := do
  let step (first : Bool) : Reader (Option α) := do
    trivia
    if ← accept [stop] then return none
    if !first then
      expect [',']
      trivia
      if ← accept [stop] then return none
    return some (← item)
  match ← step true with
  | none => return []
  | some head => return head :: (← collect (step false))

/-- A key, an equals sign and a value; `space` skips what may stand around the equals sign. -/
def assignment (space : Reader Unit) (value : Reader Value) : Reader (List Text × Value) := do
  let path ← key
  space
  expect ['=']
  space
  return (path, ← value)

/-- A value in which arrays and inline tables nest at most `depth` deep. -/
def value : Nat → Reader Value
  | 0 => scalar
  | depth + 1 => do
    match ← peek with
    | some '[' =>
      expect ['[']
      return .array (← items ']' (value depth))
    | some '{' =>
      expect ['{']
      let assignments ← items '}' (assignment trivia (value depth))
      return .table .inline (← Entries.assignAll [] assignments)
    | _ => scalar

/-- The header of a table, or of a table of an array of tables. -/
def header : Reader (Bool × List Text) := do
  expect ['[']
  let many ← accept ['[']
  blanks
  let path ← key
  blanks
  expect (if many then [']', ']'] else [']'])
  return (many, path)

/-- The assignments up to the next header or the end. -/
def assignments : Reader (List (List Text × Value)) :=
  collect do
    trivia
    match ← peek with
    | none | some '[' => return none
    | some _ =>
      let assigned ← assignment blanks (value depthLimit)
      lineEnd
      return some assigned

/-- A whole document. -/
def document : Reader Entries := do
  discard <| accept ['\ufeff']
  let top ← Entries.assignAll [] (← assignments)
  let sections ← collect do
    match ← peek with
    | none => return none
    | some _ =>
      let (many, path) ← header
      lineEnd
      return some (many, path, ← assignments)
  sections.foldlM (fun entries (many, path, assignments) =>
    if many then entries.addToTables path assignments else entries.addTable path assignments) top

end Reader

/-- The table that a TOML text denotes. -/
def read (text : Text) : Option Entries :=
  match Reader.document text with
  | some (entries, []) => some entries
  | _ => none

end Stencil.Toml
