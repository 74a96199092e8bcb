import Stencil.CommandLine.Run

/-!
# The program

Runs a command line on the files of the machine. All decisions are made by the run; here files are
read and written for it, and its transcript is printed.
-/

namespace Stencil

/-- The number of a system error, which may be given with its sign turned. -/
def systemErrorNumber (code : UInt32) : UInt32 := if code < 0x80000000 then code else 0 - code

/-- The fault of a file operation that failed. -/
def FileFault.ofError : IO.Error → FileFault
  | .noFileOrDirectory .. => .notFound
  | .inappropriateType _ code details | .invalidArgument _ code details
  | .permissionDenied _ code details | .resourceExhausted _ code details =>
    let number := systemErrorNumber code
    if number = 20 then .notDirectory
    else if number = 21 then .isDirectory
    else if number = 40 then .tooManyLinks
    else .other s!"{details.capitalize} (os error {number})"
  | error => .other (toString error)

/-- Read a file of the machine. -/
def readMachineFile (path : Path) : IO (Except FileFault Text) := do
  try
    match Content.ofBytes (← IO.FS.readBinFile path.text.string).toList with
    | .text text => return .ok text
    | .binary _ => return .error .invalidText
  catch error => return .error (.ofError error)

/-- Write a file of the machine. -/
def writeMachineFile (path : Path) (text : Text) : IO (Except FileFault Unit) := do
  try
    IO.FS.writeFile path.text.string text.string
    return .ok ()
  catch error => return .error (.ofError error)

/-- Where a path of the machine leads. -/
def locateMachineFile (path : Path) : IO (Option Location) := do
  try
    let resolved ← IO.FS.realPath path.text.string
    return some ((Text.cut '/' resolved.toString.toList).filter (· != []))
  catch _ => return none

/-- On a machine, a file that may not be read is a file nevertheless. -/
instance : FileAccess IO where
  readText := readMachineFile
  writeText := writeMachineFile
  canonical? := locateMachineFile
  isFile path := do
    match ← readMachineFile path with
    | .ok _ | .error .invalidText => return true
    | .error (.other _) => return true
    | .error _ => return false

/-- The environment of the program. -/
def machineEnvironment (arguments : List String) : IO Environment := do
  let plain := (← IO.getEnv "NO_COLOR").isSome
  let rules ← IO.getEnv "RUST_LOG"
  let directory ← IO.currentDir
  return {
    arguments := arguments.map String.toList
    plain
    logRules := rules.map String.toList
    workingDirectory := directory.toString.toList }

end Stencil

/-- Run the program on the machine's files and print what the run writes. -/
def main (arguments : List String) : IO UInt32 := do
  let transcript ← Stencil.CommandLine.run (← Stencil.machineEnvironment arguments)
  for chunk in transcript.chunks do
    match chunk.channel with
    | .results => IO.print chunk.text
    | .messages => IO.eprint chunk.text
  return UInt32.ofNat transcript.exit
