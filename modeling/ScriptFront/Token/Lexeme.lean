import ScriptFront.Token
import ScriptFront.Diagnostic

/-! Lexemes: the longest piece at the front of a text that makes one token, or the
piece that makes none. What a lexeme is depends on the characters alone, not on
the line or the file it stands in. -/
namespace ScriptFront

/-- A piece of text, what follows it, and the token or the fault it stands for. -/
structure Lexeme where
  text : List Char
  rest : List Char
  content : Except Fault (TokenKind × Payload)

namespace Lexeme

/-- Characters that separate lexemes and carry no meaning. A newline is not one. -/
def isGap (c : Char) : Bool := c == ' ' || c == '\t' || c == '\r'

/-- The text after its gaps and comments. A comment runs from `//` up to the next
newline and leaves that in place. -/
def skipTrivia : List Char → List Char
  | [] => []
  | c :: cs =>
    if isGap c then skipTrivia cs
    else if c = '/' ∧ cs.head? = some '/' then cs.dropWhile (· != '\n')
    else c :: cs

def isLetter (c : Char) : Bool := c.isAlpha || c == '_'

def isWordChar (c : Char) : Bool := isLetter c || c.isDigit

def wordContent (word : String) : TokenKind × Payload :=
  match Keyword.ofWord? word with
  | some keyword => (.keyword keyword, .absent)
  | none => (.identifier, .text word)

def ofWord (cs : List Char) : Lexeme :=
  let text := cs.takeWhile isWordChar
  ⟨text, cs.dropWhile isWordChar, .ok (wordContent (String.ofList text))⟩

/-- The digits of a fraction: those right after a point. -/
def fractionDigits : List Char → List Char
  | '.' :: more => more.takeWhile Char.isDigit
  | _ => []

def numberText (whole fraction : List Char) : List Char :=
  if fraction.isEmpty then whole else whole ++ '.' :: fraction

/-- Whole numbers are below `2 ^ 63`. -/
def intBound : Nat := Nat.pow 2 63

/-- The number written by its digits, unless a letter touches it. A number with a
fraction is rounded to binary64, one without has to be below the bound. -/
def numberContent (whole fraction : List Char) (next : Option Char) :
    Except Fault (TokenKind × Payload) :=
  match next.filter isLetter with
  | some c => .error (.malformedNumber (String.ofList (numberText whole fraction ++ [c])))
  | none =>
    if fraction.isEmpty then
      let value := Nat.ofDigitChars 10 whole 0
      if value < intBound then .ok (.int, .int (Int64.ofNat value))
      else .error (.numberOutOfRange (String.ofList whole))
    else
      let digits := Nat.ofDigitChars 10 (whole ++ fraction) 0
      .ok (.float, .float (Binary64.ofDecimal digits (-(fraction.length : Int))))

def ofNumber (cs : List Char) : Lexeme :=
  let whole := cs.takeWhile Char.isDigit
  let fraction := fractionDigits (cs.dropWhile Char.isDigit)
  let text := numberText whole fraction
  let rest := cs.drop text.length
  ⟨text, rest, numberContent whole fraction rest.head?⟩

/-- A string from after its opening quote: raw text up to the next quote. -/
def ofString (cs : List Char) : Lexeme :=
  let contents := cs.takeWhile (· != '"')
  match cs.dropWhile (· != '"') with
  | [] => ⟨'"' :: contents, [], .error .unterminatedString⟩
  | quote :: rest =>
    ⟨'"' :: contents ++ [quote], rest, .ok (.string, .text (String.ofList contents))⟩

def single? : Char → Option TokenKind
  | '\n' => some .newLine
  | '(' => some .openParen
  | ')' => some .closeParen
  | ';' => some .semicolon
  | ':' => some .colon
  | ',' => some .comma
  | '+' => some .plus
  | '-' => some .dash
  | '/' => some .slash
  | '*' => some .star
  | _ => none

/-- The kinds of a symbol that stands alone or joined with an equals sign. -/
def joinable? : Char → Option (TokenKind × TokenKind)
  | '=' => some (.assignment, .equals)
  | '!' => some (.not, .notEquals)
  | '<' => some (.less, .lessEquals)
  | '>' => some (.greater, .greaterEquals)
  | _ => none

def ofSymbol (c : Char) (cs : List Char) : Lexeme :=
  match single? c, joinable? c with
  | some kind, _ => ⟨[c], cs, .ok (kind, .absent)⟩
  | none, some (alone, joined) =>
    match cs with
    | '=' :: rest => ⟨[c, '='], rest, .ok (joined, .absent)⟩
    | _ => ⟨[c], cs, .ok (alone, .absent)⟩
  | none, none => ⟨[c], cs, .error (.unrecognisedToken (String.singleton c))⟩

/-- The lexeme at the front of `c :: cs`. -/
def first (c : Char) (cs : List Char) : Lexeme :=
  if isLetter c then ofWord (c :: cs)
  else if c.isDigit then ofNumber (c :: cs)
  else if c = '"' then ofString cs
  else ofSymbol c cs

theorem skipTrivia_length (cs : List Char) : (skipTrivia cs).length ≤ cs.length := by
  induction cs with
  | nil => exact Nat.le_refl 0
  | cons c cs ih =>
    simp only [skipTrivia]
    split
    · exact Nat.le_succ_of_le ih
    · split
      · exact Nat.le_succ_of_le (List.dropWhile_sublist _).length_le
      · exact Nat.le_refl _

theorem ofWord_split (cs : List Char) : (ofWord cs).text ++ (ofWord cs).rest = cs :=
  List.takeWhile_append_dropWhile

private theorem append_drop_of_eq {text rest cs : List Char} (same : cs = text ++ rest) :
    text ++ cs.drop text.length = cs := by
  subst same
  simp

theorem fractionDigits_eq_nil_or (cs : List Char) :
    fractionDigits cs = [] ∨ ∃ rest, cs = '.' :: fractionDigits cs ++ rest := by
  unfold fractionDigits
  split
  · rename_i more
    exact .inr ⟨more.dropWhile Char.isDigit, by simp⟩
  · exact .inl rfl

/-- The text of a number is what stands at the front of the input. -/
theorem ofNumber_split (cs : List Char) : (ofNumber cs).text ++ (ofNumber cs).rest = cs := by
  have split : cs.takeWhile Char.isDigit ++ cs.dropWhile Char.isDigit = cs :=
    List.takeWhile_append_dropWhile
  suffices front : ∃ rest, cs = (ofNumber cs).text ++ rest from
    front.elim fun _ same => append_drop_of_eq same
  simp only [ofNumber, numberText]
  by_cases empty : fractionDigits (cs.dropWhile Char.isDigit) = []
  · exact ⟨cs.dropWhile Char.isDigit, by simp [empty]⟩
  · obtain ⟨rest, point⟩ := (fractionDigits_eq_nil_or _).resolve_left empty
    refine ⟨rest, ?_⟩
    simp only [List.isEmpty_iff, empty, if_false, List.append_assoc]
    rw [← point, split]

theorem ofString_split (cs : List Char) : (ofString cs).text ++ (ofString cs).rest = '"' :: cs := by
  have split : cs.takeWhile (· != '"') ++ cs.dropWhile (· != '"') = cs :=
    List.takeWhile_append_dropWhile
  simp only [ofString]
  split
  · rename_i closed
    rw [closed] at split
    simp only [List.append_nil] at split ⊢
    rw [split]
  · rename_i closed
    rw [closed] at split
    simpa using split

theorem ofSymbol_split (c : Char) (cs : List Char) :
    (ofSymbol c cs).text ++ (ofSymbol c cs).rest = c :: cs := by
  simp only [ofSymbol]
  split
  · rfl
  · split <;> rfl
  · rfl

/-- Nothing is lost: a lexeme and what follows it make up the text. -/
theorem first_split (c : Char) (cs : List Char) :
    (first c cs).text ++ (first c cs).rest = c :: cs := by
  simp only [first]
  split
  · exact ofWord_split _
  · split
    · exact ofNumber_split _
    · split
      · rename_i quote
        rw [ofString_split, quote]
      · exact ofSymbol_split c cs

theorem first_text_ne_nil (c : Char) (cs : List Char) : (first c cs).text ≠ [] := by
  simp only [first]
  split
  · rename_i letter
    simp [ofWord, isWordChar, letter]
  · split
    · rename_i digit
      simp only [ofNumber, numberText]
      split <;> simp [digit]
    · split
      · simp only [ofString]
        split <;> simp
      · simp only [ofSymbol]
        split
        · simp
        · split <;> simp
        · simp

theorem first_rest_length (c : Char) (cs : List Char) :
    (first c cs).rest.length < (c :: cs).length := by
  have whole := congrArg List.length (first_split c cs)
  have some := List.length_pos_iff.mpr (first_text_ne_nil c cs)
  rw [List.length_append] at whole
  omega

end Lexeme
end ScriptFront
