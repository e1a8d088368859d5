import ScriptFront.Text.Lines
import ScriptFront.Text.Quoted

/-! Diagnostics: what is wrong with a source, and where. A fault carries the text
it is about; its wording, its tip and the layout of the report are given here once. -/
namespace ScriptFront

/-- A line, counted from one, of the file with the given label. -/
structure Position where
  line : UInt32
  file : String
  deriving DecidableEq

def Position.render (position : Position) : String :=
  position.file ++ ":" ++ toString position.line

/-- The label of a source that comes from no file. -/
def shellLabel : String := "shell"

inductive Phase where
  | lexing
  | parsing
  deriving DecidableEq

inductive Fault where
  | unrecognisedToken (text : String)
  | unterminatedString
  | malformedNumber (text : String)
  | numberOutOfRange (text : String)
  | unexpectedToken (text : String)
  | unterminatedGrouping
  | expectedCloseParen (text : String)
  | invalidAssignmentTarget
  | expectedSeparator (text : String)
  | nestingTooDeep (limit : Nat)
  deriving DecidableEq

namespace Fault

def phase : Fault → Phase
  | .unrecognisedToken _ | .unterminatedString | .malformedNumber _ | .numberOutOfRange _ => .lexing
  | .unexpectedToken _ | .unterminatedGrouping | .expectedCloseParen _
  | .invalidAssignmentTarget | .expectedSeparator _ | .nestingTooDeep _ => .parsing

def name : Fault → String
  | .unrecognisedToken _ => "UnrecognisedToken"
  | .unterminatedString => "UnterminatedString"
  | .malformedNumber _ => "MalformedNumber"
  | .numberOutOfRange _ => "NumberParseError"
  | .unexpectedToken _ => "UnexpectedToken"
  | .unterminatedGrouping => "UnterminatedGrouping"
  | .expectedCloseParen _ => "ExpectedCloseParen"
  | .invalidAssignmentTarget => "InvalidAssignmentTarget"
  | .expectedSeparator _ => "ExpectedSeparator"
  | .nestingTooDeep _ => "NestingTooDeep"

def message : Fault → String
  | .unrecognisedToken text => "unrecognised token: " ++ Text.quote text
  | .unterminatedString => "unterminated string"
  | .malformedNumber text => "invalid number: " ++ Text.quote text
  | .numberOutOfRange text => "error parsing number: " ++ Text.quote text
  | .unexpectedToken text => "cannot parse expression starting with " ++ Text.quote text
  | .unterminatedGrouping => "unterminated grouping"
  | .expectedCloseParen text => "expected a ')', found " ++ Text.quote text
  | .invalidAssignmentTarget => "left operand must be name"
  | .expectedSeparator text => "expected a ';', found " ++ Text.quote text
  | .nestingTooDeep limit =>
    "expression nested deeper than " ++ toString limit ++ " levels"

def tip? : Fault → Option String
  | .unrecognisedToken _ => none
  | .unterminatedString => some "Unterminated string, add a closing '\"'"
  | .malformedNumber text =>
    some ("Invalid number: `" ++ text ++ "`, identifiers cannot start with a digit")
  | .numberOutOfRange text =>
    some ("Invalid number: `" ++ text ++ "`, is it above the integer limit?")
  | .unexpectedToken text =>
    some ("Unexpected token: `" ++ text ++ "`, expected an expression")
  | .unterminatedGrouping => some "Unterminated grouping, add a closing ')'"
  | .expectedCloseParen text => some ("Unexpected token: `" ++ text ++ "`, expected a ')'")
  | .invalidAssignmentTarget => some "Only names can be assigned to"
  | .expectedSeparator text =>
    some ("Unexpected token: `" ++ text ++ "`, did you miss a semicolon?")
  | .nestingTooDeep limit =>
    some ("Expressions cannot nest more than " ++ toString limit ++
      " levels, split it with assignments")

end Fault

/-- A fault at its place. -/
structure Diagnostic where
  fault : Fault
  position : Position
  deriving DecidableEq

namespace Diagnostic

def phase (d : Diagnostic) : Phase := d.fault.phase

def line (d : Diagnostic) : UInt32 := d.position.line

def message (d : Diagnostic) : String := d.fault.message ++ " at " ++ d.position.render

def headline (d : Diagnostic) : String :=
  match d.fault.tip? with
  | none => "Error: " ++ d.fault.name
  | some tip => "Error: " ++ d.fault.name ++ " (" ++ tip ++ ")"

/-- The bar stands one blank after the place of the line number. -/
def gutter (number : String) : String :=
  String.ofList (List.replicate (number.length + 1) ' ') ++ "|"

/-- The part of a source line that a report shows. -/
def shownText (line : String) : String :=
  String.ofList (Text.trimEnd (line.toList.dropWhile fun c => c == ' ' || c == '\t'))

/-- The report of a diagnostic: a headline, the file, a bar, and, if the source
has the line, its text over a row of carets that is never empty. -/
def report (d : Diagnostic) (source : String) : String :=
  let number := toString d.line
  let bar := gutter number
  let head := d.headline ++ "\n-> " ++ d.position.file ++ "\n" ++ bar ++ "\n"
  match Text.lineAt? source d.line with
  | none => head
  | some line =>
    let text := shownText line
    let carets := String.ofList (List.replicate (max text.length 1) '^')
    head ++ number ++ " | " ++ text ++ "\n" ++ bar ++ " " ++ carets ++ "\n"

end Diagnostic
end ScriptFront
