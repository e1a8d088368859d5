import ScriptFront.CommandLine.Run

/-! The command on the system it runs on. -/
namespace ScriptFront.CommandLine

/-- The number of a reason. It may come negated, as a word. -/
def reasonNumber (code : UInt32) : Nat :=
  if code.toNat < 0x80000000 then code.toNat else 0x100000000 - code.toNat

/-- The fault with a given code. The reasons for which a file is refused have fixed
descriptions, any other is described as the system does. -/
def ReadFault.ofCode (code : UInt32) (details : String) : ReadFault :=
  match reasonNumber code with
  | 2 => .missing
  | 13 => .system "Permission denied" 13
  | 20 => .notDirectory
  | 21 => .isDirectory
  | 36 => .system "File name too long" 36
  | 40 => .system "Too many levels of symbolic links" 40
  | number => .system details number

/-- The system's reason for a failed read. -/
def ReadFault.ofError : IO.Error → ReadFault
  | .noFileOrDirectory _ code details => .ofCode code details
  | .inappropriateType _ code details => .ofCode code details
  | .permissionDenied _ code details => .ofCode code details
  | .invalidArgument _ code details => .ofCode code details
  | .resourceExhausted _ code details => .ofCode code details
  | .interrupted _ code details => .ofCode code details
  | .noSuchThing _ code details => .ofCode code details
  | .illegalOperation code details => .ofCode code details
  | .unsupportedOperation code details => .ofCode code details
  | .otherError code details => .ofCode code details
  | error => .ofCode 5 (toString error)

def systemHost : Host IO where
  readFile path := do
    try return decodeFile (← IO.FS.readBinFile path)
    catch error => return .error (.ofError error)
  startClock := do
    let start ← IO.monoNanosNow
    return do return renderDuration ((← IO.monoNanosNow) - start)
  out := IO.print
  err := IO.eprint

end ScriptFront.CommandLine

def main (args : List String) : IO UInt32 :=
  ScriptFront.CommandLine.run ScriptFront.CommandLine.systemHost args
