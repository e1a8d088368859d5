import ScriptFront.Text.CharacterClass

/-! Quoted text, as messages show what was read: double quotes around it, the
quote and the backslash escaped, and what would not be visible spelled out. -/
namespace ScriptFront.Text

/-- A character by its code point in lowercase hexadecimal, without padding. -/
def codePointEscape (c : Char) : List Char :=
  ['\\', 'u', '\x7b'] ++ Nat.toDigits 16 c.toNat ++ ['\x7d']

/-- Whether a character, written as it is, would not be seen or would change how the
text around it is seen. -/
def isHidden (c : Char) : Bool := isUnprintable c || isDefaultIgnorable c || isExtendingMark c

def escape (c : Char) : List Char :=
  if c = '\x00' then ['\\', '0']
  else if c = '\t' then ['\\', 't']
  else if c = '\r' then ['\\', 'r']
  else if c = '\n' then ['\\', 'n']
  else if c = '"' then ['\\', '"']
  else if c = '\\' then ['\\', '\\']
  else if isHidden c then codePointEscape c
  else [c]

def quote (text : String) : String :=
  String.ofList ('"' :: text.toList.flatMap escape ++ ['"'])

end ScriptFront.Text
