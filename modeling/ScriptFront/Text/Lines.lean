/-! The lines of a text. They are divided by newlines, so a text with `n`
newlines has `n + 1` lines, and are counted from one. -/
namespace ScriptFront.Text

/-- The line after the given number of newlines. -/
def lineAfter? : Nat → List Char → Option (List Char)
  | 0, text => some (text.takeWhile (· != '\n'))
  | skipped + 1, text =>
    match text.dropWhile (· != '\n') with
    | [] => none
    | _ :: rest => lineAfter? skipped rest

/-- A line may end in one carriage return that is not part of its text. -/
def dropCarriageReturn (line : List Char) : List Char :=
  if line.getLast? = some '\r' then line.dropLast else line

def lineAt? (source : String) (line : UInt32) : Option String :=
  if line = 0 then none
  else
    (lineAfter? (line.toNat - 1) source.toList).map fun text =>
      String.ofList (dropCarriageReturn text)

end ScriptFront.Text
