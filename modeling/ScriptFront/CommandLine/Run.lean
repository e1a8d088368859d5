import ScriptFront.Lexer
import ScriptFront.Parser.Reading

/-! The command: it takes one file, checks it and prints the program in canonical
text. All it needs of the outside is given as a host, so a run can be followed
without one. -/
namespace ScriptFront.CommandLine

inductive ReadFault where
  /-- The system refused, with its own description and number of the reason. -/
  | system (reason : String) (code : Nat)
  | notText
  deriving DecidableEq

namespace ReadFault

def missing : ReadFault := .system "No such file or directory" 2

def notDirectory : ReadFault := .system "Not a directory" 20

def isDirectory : ReadFault := .system "Is a directory" 21

def message : ReadFault → String
  | .system reason code => reason ++ " (os error " ++ toString code ++ ")"
  | .notText => "stream did not contain valid UTF-8"

end ReadFault

/-- The text of a file, if its bytes are UTF-8. -/
def decodeFile (bytes : ByteArray) : Except ReadFault String :=
  match String.fromUTF8? bytes with
  | some text => .ok text
  | none => .error .notText

/-- A quantity in units of `10 ^ places`. -/
def renderScaled (quantity places : Nat) (unit : String) : String :=
  let digits := Nat.toDigits 10 (quantity % Nat.pow 10 places)
  let padded := List.replicate (places - digits.length) '0' ++ digits
  let fraction := (padded.reverse.dropWhile (· == '0')).reverse
  let whole := toString (quantity / Nat.pow 10 places)
  (if fraction.isEmpty then whole else whole ++ "." ++ String.ofList fraction) ++ unit

/-- The text of a duration: the largest unit of which it has at least one, and the fraction
without trailing zeros. -/
def renderDuration (nanoseconds : Nat) : String :=
  if 1000000000 ≤ nanoseconds then renderScaled nanoseconds 9 "s"
  else if 1000000 ≤ nanoseconds then renderScaled nanoseconds 6 "ms"
  else if 1000 ≤ nanoseconds then renderScaled nanoseconds 3 "µs"
  else toString nanoseconds ++ "ns"

/-- What a run asks of the outside. Starting the clock gives an action that tells
the time passed since. -/
structure Host (m : Type → Type) where
  readFile : String → m (Except ReadFault String)
  startClock : m (m String)
  out : String → m Unit
  err : String → m Unit

/-- The parts of a path. Empty parts and single dots stand for where one is. -/
def pathParts (path : String) : List String :=
  (path.splitOn "/").filter fun part => part ≠ "" && part ≠ "."

/-- The label of a file: the last part of its path, or the whole path if that part
names no file. -/
def fileLabel (path : String) : String :=
  match (pathParts path).getLast? with
  | some part => if part = ".." then path else part
  | none => path

def exitUsage : UInt32 := 64

def exitDataError : UInt32 := 65

def check {m : Type → Type} [Monad m] (host : Host m) (label source : String) : m UInt32 := do
  let total ← host.startClock
  match tokenize source (some label) with
  | .error d =>
    host.out (d.report source)
    return exitDataError
  | .ok tokens =>
    host.out ("Tokenized in " ++ (← total) ++ "\n")
    let parsing ← host.startClock
    match parse tokens label with
    | .error d =>
      host.out (d.report source)
      return exitDataError
    | .ok program =>
      host.out ("Parsed in " ++ (← parsing) ++ "\n")
      host.out ("Total time: " ++ (← total) ++ "\n")
      host.out program.render
      return 0

/-- Runs the command and gives its exit code. -/
def run {m : Type → Type} [Monad m] (host : Host m) (args : List String) : m UInt32 := do
  match args with
  | [path] =>
    match ← host.readFile path with
    | .error fault =>
      host.err ("Failed to read " ++ path ++ ": " ++ fault.message ++ "\n")
      return exitDataError
    | .ok source => check host (fileLabel path) source
  | _ =>
    host.err "Usage: frieza <file>\n"
    return exitUsage

end ScriptFront.CommandLine
