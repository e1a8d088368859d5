import ScriptFront.Token.Lexeme

/-! Lexing: a cursor over the characters still to be read, one token a step. A
step that does not find the end reads at least one character, also when it fails,
so a lexer can go on after an error and always reaches the end. -/
namespace ScriptFront

structure Lexer where
  rest : List Char
  line : UInt32
  file : String
  /-- Set once iteration has given the end of input or an error. -/
  finished : Bool
  deriving DecidableEq

namespace Lexer

def ofSource (source : String) (file : Option String) : Lexer :=
  ⟨source.toList, 1, file.getD shellLabel, false⟩

def atEnd (lexer : Lexer) : Bool := lexer.rest.isEmpty

def newlines (text : List Char) : UInt32 := UInt32.ofNat (text.count '\n')

/-- The lexer after a piece of text, with the rest given. -/
def pass (lexer : Lexer) (text rest : List Char) : Lexer :=
  { lexer with rest := rest, line := lexer.line + newlines text }

/-- A token stands on the line of its last character, an error on the line that
was reached. -/
def locate (lexer : Lexer) (lexeme : Lexeme) : Except Diagnostic Token :=
  match lexeme.content with
  | .ok (kind, payload) =>
    .ok ⟨kind, payload, lexer.line + newlines lexeme.text.dropLast⟩
  | .error fault => .error ⟨fault, ⟨lexer.line + newlines lexeme.text, lexer.file⟩⟩

/-- The next token or error, and the lexer after it. At the end of the source
every step gives the end of input. -/
def step (lexer : Lexer) : Except Diagnostic Token × Lexer :=
  match Lexeme.skipTrivia lexer.rest with
  | [] => (.ok (.bare .endOfInput lexer.line), { lexer with rest := [] })
  | c :: cs =>
    let lexeme := Lexeme.first c cs
    (lexer.locate lexeme, lexer.pass lexeme.text lexeme.rest)

/-- Whether nothing is to be read after this: it is an error or the end of input. -/
def isLast : Except Diagnostic Token → Bool
  | .ok token => token.kind = .endOfInput
  | .error _ => true

theorem step_rest_length (lexer : Lexer) (more : isLast lexer.step.1 = false) :
    lexer.step.2.rest.length < lexer.rest.length := by
  have skip := Lexeme.skipTrivia_length lexer.rest
  unfold step at more ⊢
  split at more
  · simp [isLast, Token.bare] at more
  · rename_i c cs front
    rw [front] at skip
    exact Nat.lt_of_lt_of_le (Lexeme.first_rest_length c cs) skip

theorem step_shorter {lexer next : Lexer} {token : Token}
    (read : lexer.step = (.ok token, next)) (more : token.kind ≠ .endOfInput) :
    next.rest.length < lexer.rest.length := by
  have shorter := step_rest_length lexer (by simp [read, isLast, more])
  rwa [read] at shorter

/-- All tokens up to the end of input, or the first error. -/
def scanAll (lexer : Lexer) : Except Diagnostic (List Token) × Lexer :=
  match read : lexer.step with
  | (.error d, next) => (.error d, next)
  | (.ok token, next) =>
    if last : token.kind = .endOfInput then (.ok [token], next)
    else
      have : next.rest.length < lexer.rest.length := step_shorter read last
      match next.scanAll with
      | (.ok tokens, stop) => (.ok (token :: tokens), stop)
      | (.error d, stop) => (.error d, stop)
termination_by lexer.rest.length

/-- The next item of the iteration, which is over after an error or the end of input. -/
def next? (lexer : Lexer) : Option (Except Diagnostic Token) × Lexer :=
  if lexer.finished then (none, lexer)
  else
    match lexer.step with
    | (result, next) => (some result, { next with finished := isLast result })

/-- A bound on the number of items the iteration still gives. -/
def remaining (lexer : Lexer) : Nat :=
  if lexer.finished then 0 else lexer.rest.length + 1

theorem next?_remaining {lexer next : Lexer} {item : Except Diagnostic Token}
    (read : lexer.next? = (some item, next)) : next.remaining < lexer.remaining := by
  unfold next? at read
  split at read
  · cases read
  · rename_i going
    cases step : lexer.step with
    | mk result after =>
      have shorter := step_rest_length lexer
      rw [step] at read shorter
      cases read
      cases last : isLast item with
      | true => simp [remaining, going]
      | false => simpa [remaining, going, last] using shorter last

/-- Every item the iteration still gives. -/
def drain (lexer : Lexer) : List (Except Diagnostic Token) × Lexer :=
  match read : lexer.next? with
  | (none, next) => ([], next)
  | (some item, next) =>
    have : next.remaining < lexer.remaining := next?_remaining read
    match next.drain with
    | (items, stop) => (item :: items, stop)
termination_by lexer.remaining

end Lexer

/-- The tokens of a source, the last of them the end of input. -/
def tokenize (source : String) (file : Option String) : Except Diagnostic (List Token) :=
  (Lexer.ofSource source file).scanAll.1

end ScriptFront
