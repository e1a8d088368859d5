import ScriptFront.Parser.Reading

/-! A parser that is driven step by step: rules may be added between steps, and
after an error the parser goes on behind the tokens that were used up. Its depth
takes away from the levels that an expression read next may nest. -/
namespace ScriptFront

structure Parser where
  setting : Setting
  rest : List Token
  depth : Nat

namespace Parser

/-- A parser at the first token, without rules. -/
def ofTokens (tokens : List Token) (file : String) : Parser :=
  ⟨.ofTokens .empty file tokens, tokens, 0⟩

def grammar (parser : Parser) : Grammar := parser.setting.grammar

def withGrammar (parser : Parser) (grammar : Grammar) : Parser :=
  { parser with setting := { parser.setting with grammar := grammar } }

def addStart (parser : Parser) (kind : TokenKind) (rule : StartRule) : Parser :=
  parser.withGrammar (parser.grammar.start kind rule)

def addJoin (parser : Parser) (kind : TokenKind) (power : Power) (rule : JoinRule) : Parser :=
  parser.withGrammar (parser.grammar.join kind power rule)

def addStandard (parser : Parser) : Parser :=
  parser.withGrammar parser.grammar.addStandard

def current (parser : Parser) : Token := parser.setting.current parser.rest

/-- The current token, and the parser behind it. The end of input stays current. -/
def consume (parser : Parser) : Token × Parser :=
  (parser.current, { parser with rest := parser.rest.tail })

def hasTokens (parser : Parser) : Bool := parser.current.kind ≠ .endOfInput

def skipNewLines (parser : Parser) : Parser :=
  { parser with rest := ScriptFront.skipNewLines parser.rest }

def positionOf (parser : Parser) (token : Token) : Position := parser.setting.positionOf token

def position (parser : Parser) : Position := parser.positionOf parser.current

/-- One level deeper, unless the limit is reached. -/
def enter (parser : Parser) : Except Diagnostic Parser :=
  if nestingLimit ≤ parser.depth then .error (parser.setting.tooDeep parser.rest)
  else .ok { parser with depth := parser.depth + 1 }

/-- One level up; the top stays where it is. -/
def leave (parser : Parser) : Parser := { parser with depth := parser.depth - 1 }

/-- Enters as often as asked. An error comes with the number of levels entered. -/
def enterTimes : Nat → Parser → Except (Diagnostic × Nat) Unit × Parser
  | 0, parser => (.ok (), parser)
  | times + 1, parser =>
    match parser.enter with
    | .error d => (.error (d, 0), parser)
    | .ok inner =>
      match enterTimes times inner with
      | (.ok (), last) => (.ok (), last)
      | (.error (d, entered), last) => (.error (d, entered + 1), last)

def leaveTimes : Nat → Parser → Parser
  | 0, parser => parser
  | times + 1, parser => leaveTimes times parser.leave

/-- The parser behind what was read. -/
def settle {α : Type} (parser : Parser) (outcome : Outcome α) : Except Diagnostic α × Parser :=
  (outcome.result, { parser with rest := outcome.rest })

def room (parser : Parser) : Nat := nestingLimit - parser.depth

def operand (parser : Parser) : Operand := parser.setting.level parser.room

def readExpr (parser : Parser) (power : Power) : Except Diagnostic Expr × Parser :=
  parser.settle (parser.operand.read power parser.rest)

def readStmt (parser : Parser) : Except Diagnostic Stmt × Parser :=
  parser.settle (parser.setting.readStmt parser.room parser.rest)

/-- Applies a rule to a token as if the token had just been read. -/
def startWith (parser : Parser) (rule : StartRule) (token : Token) :
    Except Diagnostic Expr × Parser :=
  parser.settle (parser.setting.startWith parser.operand rule token parser.rest)

def joinWith (parser : Parser) (rule : JoinRule) (left : Expr) (operator : Token)
    (power : Power) : Except Diagnostic Expr × Parser :=
  parser.settle (parser.setting.joinWith parser.operand rule left operator power parser.rest)

end Parser
end ScriptFront
